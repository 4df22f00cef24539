/-
A scan in front of a place where a token ends.

What a scan has passed over it passes over just so when the text behind the place gives
way to one that stands apart, which is empty or starts with a blank.  Every lexeme in
front of the place is read as before, for the place is one where a token ends, and the
last of them was not read in view of what stood there as long as nothing is awaited.
-/
import ResourceQuery.Proofs.Lexeme.Seam
import ResourceQuery.Proofs.Scan.Promise

namespace ResourceQuery.Scan

variable {s next mid : Scan} {t : Tile} {ts : List Tile} {back' : List Char}

theorem Advances.written_ne_nil (h : Advances s t next) : t.written ≠ [] := by
  obtain ⟨-, reading, -⟩ := h
  obtain ⟨c, cs, rfl, -⟩ := reading.exists_cons
  simp [Tile.written]

/-- What goes up to a token ends as the token does. -/
theorem Advances.getLast?_append (h : Advances s t next) (front : List Char) :
    (front ++ t.written).getLast? = t.raw.getLast? := by
  obtain ⟨-, reading, -⟩ := h
  obtain ⟨c, cs, rfl, -⟩ := reading.exists_cons
  rw [Tile.written, ← List.append_assoc, List.getLast?_append_of_ne_nil _ (List.cons_ne_nil c cs)]

theorem Advances.seam (h : Advances s t next) : Seam t.written next.rest := by
  obtain ⟨-, reading, -⟩ := h
  obtain ⟨c, cs, rfl, -⟩ := reading.exists_cons
  exact (Seam.append_left_iff (List.cons_ne_nil c cs) _).mpr reading.seam

/-- A scan comes to a place where a token ends. -/
theorem Passes.seam (h : Passes s ts mid) (hts : ts ≠ []) :
    Seam (ts.flatMap Tile.written) mid.rest := by
  rcases h.last_cases with ⟨hnil, -⟩ | ⟨us, t, front, rfl, -, hlast⟩
  · exact absurd hnil hts
  · rw [List.flatMap_append, List.flatMap_singleton]
    exact (Seam.append_left_iff hlast.written_ne_nil _).mpr hlast.seam

/-- Where a colon is next behind a token and in front of another, the token is a type. -/
theorem Passes.typeName_of_gap (h : Advances s t next) (hsteps : Passes next ts mid)
    (hcolon : (ts.flatMap Tile.written).head? = some ':') : t.token.kind = .typeName := by
  cases hsteps with
  | nil => cases hcolon
  | cons step steps =>
      refine h.typeName_of_colon step ?_
      rw [(Passes.cons step steps).rest_eq, List.head?_append, hcolon, Option.some_or]

theorem Passes.eq_of_written_eq_nil (h : Passes s ts mid) (hts : ts.flatMap Tile.written = []) :
    s = mid := by
  cases h with
  | nil => rfl
  | cons step _ => exact absurd (List.append_eq_nil_iff.mp hts).1 step.written_ne_nil

/-- **All in front of a place where a token ends is passed over as before when the text
behind it gives way to one that stands apart**, unless something is awaited there. -/
theorem Passes.apart (h : Passes s ts mid) (ha : mid.machine.context.awaited? = none)
    (hback' : Apart back') :
    Passes { s with rest := ts.flatMap Tile.written ++ back' } ts { mid with rest := back' } := by
  refine h.with_rest ?_
  intro vs us u place next l _ hstep hsteps reading hkind accepted
  obtain ⟨c, cs, hraw, -⟩ := reading.exists_cons
  have hseam : Seam (u.raw ++ us.flatMap Tile.written) mid.rest := by
    have hwhole := (Passes.cons hstep hsteps).seam (List.cons_ne_nil u us)
    rw [List.flatMap_cons, Tile.written, List.append_assoc] at hwhole
    exact (Seam.append_left_iff (by simp [hraw]) u.blanks).mp hwhole
  have hnone : us.flatMap Tile.written = [] → l.symbol.promised? = none := by
    intro hnil
    rw [← (Machine.move_of_accept accepted).awaited?_eq, hsteps.eq_of_written_eq_nil hnil]
    exact ha
  rw [hsteps.rest_eq] at reading
  refine reading.apart hseam hback' hnone ?_
  intro hcolon
  rw [hkind]
  exact hsteps.typeName_of_gap hstep hcolon

end ResourceQuery.Scan
