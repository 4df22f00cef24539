/-
A token and the object it is interchanged as.

Reading a token is the inverse of writing it: what is read as a token has the members that
the token is written with (`ofJson_eq_ok_iff`), and whatever else it has does not matter.
Both that and what is wrong with anything else follow from one list of checks, of which the
first that fails gives the error.

A position is an integer that 64 bits hold without a sign.  Of the numerals of a JSON text
only digits stand for one, so a minus, a point or an exponent is refused even where the
number is whole and not negative.
-/
import ResourceQuery.Proofs.DecisionList
import ResourceQuery.Proofs.Json.Numeral
import ResourceQuery.Token.Json

namespace ResourceQuery

namespace Json

/-- The value is an object with the member. -/
def Has (j : Json) (name : String) (value : Json) : Prop :=
  ∃ members, j = .object members ∧ member? members name = some value

variable {j value value' : Json} {name s : String} {n : Nat}
variable {members : List (String × Json)}

theorem has_object_iff : (object members).Has name value ↔ member? members name = some value := by
  constructor
  · rintro ⟨members, hobject, hmember⟩
    obtain rfl := Json.object.inj hobject
    exact hmember
  · exact fun hmember => ⟨members, rfl, hmember⟩

/-- A name has one member. -/
theorem Has.unique (h : j.Has name value) (h' : j.Has name value') : value = value' := by
  obtain ⟨members, rfl, hmember⟩ := h
  rw [has_object_iff, hmember] at h'
  exact Option.some.inj h'

theorem members?_eq_some_iff : j.members? = some members ↔ j = .object members := by
  cases j <;> simp [members?]

theorem text?_eq_some_iff : j.text? = some s ↔ j = .string s := by
  cases j <;> simp [text?]

theorem text?_member_iff : (member? members name).bind text? = some s ↔
    (object members).Has name (.string s) := by
  simp only [Option.bind_eq_some_iff, text?_eq_some_iff, exists_eq_right, has_object_iff]

theorem index?_member_iff : (member? members name).bind index? = some n ↔
    (object members).Has name (.integer n) ∧ n < wordLimit := by
  simp only [Option.bind_eq_some_iff, index?_eq_some_iff, has_object_iff]
  constructor
  · rintro ⟨_, hmember, rfl, hn⟩
    exact ⟨hmember, hn⟩
  · rintro ⟨hmember, hn⟩
    exact ⟨_, hmember, rfl, hn⟩

end Json

namespace Token

open Json (wordLimit)

variable {t : Token} {j : Json}

/-- What is read as a token, or what the first check that fails finds wrong with it. -/
def checks (j : Json) : List (Rule (Except JsonError Token)) :=
  [{ applies := ∀ members, j ≠ .object members
     gives := fun answer => answer = .error (.notAnObject j) },
   { applies := ∀ name, ¬ j.Has "type" (.string name)
     gives := fun answer => answer = .error .noKind },
   { applies := ∀ kind : Kind, ¬ j.Has "type" (.string kind.name)
     gives := fun answer => ∃ name, j.Has "type" (.string name) ∧
       answer = .error (.unknownKind ⟨name⟩) },
   { applies := ∀ value, ¬ j.Has "value" (.string value)
     gives := fun answer => answer = .error .noValue },
   { applies := ∀ n : Nat, n < wordLimit → ¬ j.Has "position" (.integer n)
     gives := fun answer => answer = .error .noPosition },
   { applies := True
     gives := fun answer => ∃ kind value, ∃ n : Nat, j.Has "type" (.string kind.name) ∧
       j.Has "value" (.string value) ∧ j.Has "position" (.integer n) ∧ n < wordLimit ∧
         answer = .ok ⟨kind, value, n⟩ }]

theorem ofName_eq_ok_iff {name : String} {kind : Kind} :
    (Kind.ofName name).mapError JsonError.unknownKind = .ok kind ↔ kind.name = name := by
  rw [← Kind.ofName_eq_ok_iff]
  cases Kind.ofName name with
  | ok found =>
      exact ⟨fun h => congrArg _ (Except.ok.inj h), fun h => congrArg _ (Except.ok.inj h)⟩
  | error e => exact ⟨nofun, nofun⟩

theorem unknownKind_of_ofName {name : String} {e : JsonError}
    (h : (Kind.ofName name).mapError JsonError.unknownKind = .error e) :
    (∀ kind : Kind, kind.name ≠ name) ∧ e = .unknownKind ⟨name⟩ := by
  refine ⟨fun kind hkind => ?_, ?_⟩
  · rw [ofName_eq_ok_iff.mpr hkind] at h
    cases h
  · unfold Kind.ofName at h
    split at h
    · cases h
    · exact (Except.error.inj h).symm

/-- What is wanted decides where it is absent. -/
theorem decides_wanted {α β : Type} {x : Option α} {e : JsonError} {f : α → Except JsonError β}
    {rule : Rule (Except JsonError β)} {rules : List (Rule (Except JsonError β))}
    (absent : (∀ a, x ≠ some a) → rule.applies ∧ rule.gives (.error e))
    (found : ∀ a, x = some a → ¬ rule.applies ∧ Decides rules (f a)) :
    Decides (rule :: rules) (wanted x e >>= f) := by
  cases x with
  | none => exact .bind (fun e' he => Except.error.inj he ▸ absent nofun) nofun
  | some a => exact .bind nofun fun a' ha => Except.ok.inj ha ▸ found a rfl

/-- The first check that fails gives the error. -/
theorem decides_ofJson (j : Json) : Decides (checks j) (ofJson j) := by
  refine decides_wanted (fun habsent => ⟨fun members hj => ?_, rfl⟩) fun members hmembers => ?_
  · exact habsent members (Json.members?_eq_some_iff.mpr hj)
  obtain rfl := Json.members?_eq_some_iff.mp hmembers
  refine ⟨fun hnot => hnot members rfl,
    decides_wanted (fun habsent => ⟨fun name hhas => ?_, rfl⟩) fun name hname => ?_⟩
  · exact habsent name (Json.text?_member_iff.mpr hhas)
  have htype := Json.text?_member_iff.mp hname
  refine ⟨fun hnot => hnot name htype, .bind (fun e he => ?_) fun kind hkind => ?_⟩
  · obtain ⟨hne, rfl⟩ := unknownKind_of_ofName he
    exact ⟨fun kind hkind => hne kind (Json.string.inj (hkind.unique htype)), name, htype, rfl⟩
  obtain rfl := ofName_eq_ok_iff.mp hkind
  refine ⟨fun hnot => hnot kind htype,
    decides_wanted (fun habsent => ⟨fun value hhas => ?_, rfl⟩) fun value hvalue => ?_⟩
  · exact habsent value (Json.text?_member_iff.mpr hhas)
  have htext := Json.text?_member_iff.mp hvalue
  refine ⟨fun hnot => hnot value htext,
    decides_wanted (fun habsent => ⟨fun n hn hhas => ?_, rfl⟩) fun n hn => ?_⟩
  · exact habsent n (Json.index?_member_iff.mpr ⟨hhas, hn⟩)
  obtain ⟨hposition, hlimit⟩ := Json.index?_member_iff.mp hn
  exact ⟨fun hnot => hnot n hlimit hposition,
    .here trivial ⟨kind, value, n, htype, htext, hposition, hlimit, rfl⟩⟩

/-- An object is read as a token exactly if it has the members of the token. -/
theorem ofJson_eq_ok_iff : ofJson j = .ok t ↔ t.position < wordLimit ∧
    j.Has "type" (.string t.kind.name) ∧ j.Has "value" (.string t.value) ∧
      j.Has "position" (.integer t.position) := by
  obtain ⟨rule, hmem, happlies, hgives⟩ := (decides_ofJson j).exists_mem
  simp only [checks, List.mem_cons, List.not_mem_nil, or_false] at hmem
  constructor
  · intro h
    rw [h] at hgives
    rcases hmem with rfl | rfl | rfl | rfl | rfl | rfl
    · cases hgives
    · cases hgives
    · obtain ⟨name, -, hanswer⟩ := hgives
      cases hanswer
    · cases hgives
    · cases hgives
    · obtain ⟨kind, value, n, htype, hvalue, hposition, hn, hanswer⟩ := hgives
      cases hanswer
      exact ⟨hn, htype, hvalue, hposition⟩
  · rintro ⟨hn, htype, hvalue, hposition⟩
    rcases hmem with rfl | rfl | rfl | rfl | rfl | rfl
    · obtain ⟨members, hj, -⟩ := htype
      exact absurd hj (happlies members)
    · exact absurd htype (happlies _)
    · exact absurd htype (happlies _)
    · exact absurd hvalue (happlies _)
    · exact absurd hposition (happlies _ hn)
    · obtain ⟨kind, value, n, htype', hvalue', hposition', -, hanswer⟩ := hgives
      have hkind : kind = t.kind :=
        Kind.name_injective (Json.string.inj (htype'.unique htype))
      obtain rfl := Json.string.inj (hvalue'.unique hvalue)
      have hn' : n = t.position := by
        exact_mod_cast Json.integer.inj (hposition'.unique hposition)
      rw [hanswer, hkind, hn']

theorem toJson_eq (t : Token) :
    t.toJson = .object [("position", .integer t.position), ("type", .string t.kind.name),
      ("value", .string t.value)] := by
  have hvalue : ¬ "value" < "type" := by decide
  have hne : "value" ≠ "type" := by decide
  have hposition : "position" < "type" := by decide
  simp only [toJson, Json.ofMembers, List.foldl_cons, List.foldl_nil, Json.insertMember,
    if_neg hvalue, if_neg hne, if_pos hposition]

/-- The members of the object of a token. -/
theorem has_toJson (t : Token) : t.toJson.Has "type" (.string t.kind.name) ∧
    t.toJson.Has "value" (.string t.value) ∧ t.toJson.Has "position" (.integer t.position) := by
  rw [toJson_eq]
  exact ⟨⟨_, rfl, rfl⟩, ⟨_, rfl, rfl⟩, ⟨_, rfl, rfl⟩⟩

/-- The object of a token stands for that token. -/
theorem ofJson_toJson (h : t.position < wordLimit) : ofJson t.toJson = .ok t := by
  obtain ⟨htype, hvalue, hposition⟩ := has_toJson t
  exact ofJson_eq_ok_iff.mpr ⟨h, htype, hvalue, hposition⟩

/-- The members a token is written with are what it is read from. -/
theorem ofJson_eq_ok_iff_toJson : ofJson j = .ok t ↔ t.position < wordLimit ∧
    ∀ name ∈ ["type", "value", "position"], ∃ value, t.toJson.Has name value ∧
      j.Has name value := by
  obtain ⟨htype, hvalue, hposition⟩ := has_toJson t
  have hshared : ∀ {name value}, t.toJson.Has name value →
      ((∃ value, t.toJson.Has name value ∧ j.Has name value) ↔ j.Has name value) := by
    intro name value h
    constructor
    · rintro ⟨value', h', hj⟩
      exact h'.unique h ▸ hj
    · exact fun hj => ⟨value, h, hj⟩
  simp only [List.mem_cons, List.not_mem_nil, or_false, forall_eq_or_imp, forall_eq,
    hshared htype, hshared hvalue, hshared hposition, ofJson_eq_ok_iff]

/--
**Reading a token is the exact inverse of writing it.**  A token is read back from its object,
and nothing else is read as it but an object with the same three members.  What is refused is
refused for the first check that fails, and a position that is no run of digits is refused.
-/
theorem token_interchange_exact :
    (∀ t : Token, t.position < wordLimit → ofJson t.toJson = .ok t) ∧
    (∀ (j : Json) (t : Token), ofJson j = .ok t ↔ t.position < wordLimit ∧
      ∀ name ∈ ["type", "value", "position"], ∃ value, t.toJson.Has name value ∧
        j.Has name value) ∧
    (∀ j : Json, Decides (checks j) (ofJson j)) ∧
    ∀ text numeral number, Json.Numeral.read? text = some (numeral, []) →
      numeral.value? = some number → ∀ (j : Json) (t : Token), j.Has "position" number →
        ofJson j = .ok t →
          (∀ c ∈ text, c.isDigit = true) ∧ Json.Numeral.digitsValue text = t.position := by
  refine ⟨fun t => ofJson_toJson, fun j t => ofJson_eq_ok_iff_toJson, decides_ofJson, ?_⟩
  intro text numeral number hread hvalue j t hnumber h
  obtain ⟨hlimit, -, -, hposition⟩ := ofJson_eq_ok_iff.mp h
  have hindex : number.index? = some t.position :=
    Json.index?_eq_some_iff.mpr ⟨hnumber.unique hposition, hlimit⟩
  obtain ⟨hdigits, hn, -⟩ := (Json.Numeral.index?_value?_iff hread hvalue).mp hindex
  exact ⟨hdigits, hn⟩

/-- A glob and the digit of its position. -/
theorem glob_interchanged :
    ofJson (toJson ⟨.glob, "*abc?", 7⟩) = .ok ⟨.glob, "*abc?", 7⟩ ∧
      (∀ c ∈ ['7'], c.isDigit = true) ∧ Json.Numeral.digitsValue ['7'] = 7 := by
  obtain ⟨hback, -, -, hdigits⟩ := token_interchange_exact
  have hglob := hback ⟨.glob, "*abc?", 7⟩ (by decide)
  have hposition : (toJson ⟨.glob, "*abc?", 7⟩).Has "position" (.integer 7) :=
    (has_toJson _).2.2
  exact ⟨hglob, hdigits ['7'] ⟨false, ['7'], [], 0, true⟩ (.integer 7) rfl rfl _ _ hposition hglob⟩

end Token

end ResourceQuery
