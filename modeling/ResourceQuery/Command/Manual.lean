/-
The manual of the command.

It has an overview, which lists the pages, and a page for each part of the query
language.  A page is asked for by any of its names, whatever their case; hyphens
and underscores are alike.
-/
import ResourceQuery.Text.Lowercase

namespace ResourceQuery.Command

/-- A page of the manual. -/
inductive Page
  | grammar
  | operators
  | comparisons
  | literals
  | escapes
  deriving DecidableEq, Repr

namespace Page

/-- The names a page is asked for by. -/
def names : Page → List String
  | grammar => ["syntax"]
  | operators => ["operators", "ops"]
  | comparisons => ["fiql"]
  | literals => ["literals", "literal", "values", "types"]
  | escapes => ["encoding", "escaping", "escapes"]

/-- Every page, in the order in which the overview lists them. -/
def all : List Page :=
  [grammar, operators, comparisons, literals, escapes]

/-- A name as it is looked up: in small letters, with underscores for hyphens. -/
def normalize (name : String) : String :=
  (Text.lowercase name).map (fun c => if c = '-' then '_' else c)

/-- The page of a name. -/
def ofName? (name : String) : Option Page :=
  all.find? (fun page => page.names.contains (normalize name))

end Page

namespace Manual

/-- A text of whole lines. -/
def ofLines (lines : List String) : String :=
  String.join (lines.map (fun line => line ++ "\n"))

/-- The list of pages. -/
def overview : String :=
  ofLines [
    "RQL DOCUMENTATION",
    "",
    "RQL (Resource Query Language) is the filter, sort and selection syntax carried",
    "in URL query strings. `rql tokenize` shows how a query splits into tokens;",
    "`rql check` only validates it.",
    "",
    "DOCUMENTATION CATEGORIES",
    "",
    "  syntax            Calls, groups, & and |, how tokens are validated",
    "  operators         Common operator names and their arguments",
    "  fiql              The infix a=eq=1 / a<=1 forms and how they are rewritten",
    "  literals          Strings, numbers, dates, globs, constants and type casts",
    "  encoding          Percent-escaping and why it changes token types",
    "",
    "QUICK REFERENCE",
    "",
    "  eq(a,1)           Operator call",
    "  a=eq=1  a<=1      FIQL comparison",
    "  &  |              And / or between expressions",
    "  (...)             Group or array",
    "  null() true()     Constants",
    "  string:3          Type cast",
    "  *abc?             Glob",
    "  %2B               Escaped character",
    "",
    "Run 'rql doc <category>' for detailed documentation."]

/-- Calls, groups and connectives, and how tokens are validated. -/
def grammarPage : String :=
  ofLines [
    "SYNTAX - Structure of an RQL Query",
    "",
    "OPERATOR CALLS",
    "  name(arg,arg,...)",
    "",
    "  A name immediately followed by ( is an operator. Anywhere else the same",
    "  word is a plain string:",
    "",
    "    eq(eq,1)          eq is T_OPERATOR, then T_STRING",
    "",
    "COMBINING EXPRESSIONS",
    "  expr&expr         Both must hold       (T_AMPERSAND)",
    "  expr|expr         Either may hold      (T_VERTICAL_BAR)",
    "  (expr|expr)&expr  Parentheses group    (T_OPEN_PARENTHESIS / T_CLOSE_PARENTHESIS)",
    "",
    "VALIDATION",
    "  The lexer tracks what may come next and stops at the first token that",
    "  cannot appear there:",
    "",
    "    1                 Unexpected token \"1\" (T_INTEGER) at position 0",
    "    eq(a,1)1          Unexpected token \"1\" (T_INTEGER) at position 7",
    "",
    "  It does not check that parentheses balance or that operators get the",
    "  right number of arguments. That is the parser's job.",
    "",
    "WHITESPACE",
    "  Spaces between tokens are skipped. Positions in errors always refer to",
    "  the query as written."]

/-- Common operator names and their arguments. -/
def operatorsPage : String :=
  ofLines [
    "OPERATORS - Common Operator Names",
    "",
    "The lexer accepts any name followed by (. These are the usual ones.",
    "",
    "COMPARISON",
    "  eq(field,value)   ne(field,value)",
    "  lt(field,value)   gt(field,value)",
    "  le(field,value)   ge(field,value)",
    "",
    "ARRAY",
    "  in(field,(v1,v2,...))",
    "  out(field,(v1,v2,...))",
    "",
    "PATTERN",
    "  like(field,*glob?)",
    "",
    "LOGIC",
    "  and(expr,expr,...)   or(expr,expr,...)   not(expr)",
    "",
    "RESULT SHAPING",
    "  select(a,b,c)",
    "  sort(+a,-b)       + ascending (T_PLUS), - descending (T_MINUS)",
    "  limit(count)      limit(count,offset)"]

/-- The infix forms of comparisons. -/
def comparisonsPage : String :=
  ofLines [
    "FIQL - Infix Comparisons",
    "",
    "FIQL forms are rewritten to the operator they stand for. No parentheses or",
    "commas are added to the token stream:",
    "",
    "  a=eq=1            a  eq  1",
    "  a=1   a==1        a  eq  1",
    "  a!=1  a<>1        a  ne  1",
    "  a<1   a>1         a  lt  1  /  a  gt  1",
    "  a<=1  a>=1        a  le  1  /  a  ge  1",
    "",
    "NAMED OPERATORS",
    "  Any =name= is passed through unchanged:",
    "",
    "  g=in=(7,8)        g  in  (  7  ,  8  )",
    "  i=like=*abc?      i  like  *abc?",
    "",
    "FIQL may appear inside groups and argument lists:",
    "",
    "  (o<>p&q=le=r)"]

/-- The kinds of value and how they are written. -/
def literalsPage : String :=
  ofLines [
    "LITERALS - Values and Their Token Types",
    "",
    "STRINGS (T_STRING)",
    "  abc   foo-bar   a.b_c~d",
    "",
    "NUMBERS",
    "  1  +1  -1  9223372036854775809       T_INTEGER",
    "  1.5  -.4e12  1.1e+3                  T_FLOAT",
    "",
    "  Numbers keep their text. No size limit is applied.",
    "",
    "  A sign before a letter stands alone:",
    "    sort(+a)          T_PLUS, T_STRING",
    "",
    "DATES (T_DATE)",
    "  2015-04-16T17:40:32Z",
    "",
    "  A date cut short, such as 2015-04-16T17:40, is a syntax error.",
    "",
    "GLOBS (T_GLOB)",
    "  *abc?             Any unescaped * or ? makes a glob",
    "",
    "CONSTANTS",
    "  null()  true()  false()  empty()",
    "",
    "  The parentheses are required: null on its own is the string \"null\".",
    "",
    "TYPE CASTS",
    "  string:3          T_TYPE, T_COLON, T_INTEGER",
    "  date:empty()      T_TYPE, T_COLON, T_EMPTY",
    "",
    "  The cast never changes how the value after it is classified."]

/-- Escapes, and how they change what a value is. -/
def escapesPage : String :=
  ofLines [
    "ENCODING - Percent-Escaping",
    "",
    "Any %XX escape inside a value makes the whole value a plain string, decoded:",
    "",
    "  null()            T_NULL",
    "  null%28%29        T_STRING \"null()\"",
    "",
    "  +abc              T_PLUS, T_STRING \"abc\"",
    "  %2Babc            T_STRING \"+abc\"",
    "",
    "  *abc?             T_GLOB",
    "  %2Aabc%3F         T_STRING \"*abc?\"",
    "",
    "  1.1e+3            T_FLOAT",
    "  1%2E1e%2B3        T_STRING \"1.1e+3\"",
    "",
    "Use escaping whenever a value must be taken literally.",
    "",
    "ERRORS",
    "  %2                Unterminated escape",
    "  %FF               Escapes must decode to UTF-8"]

end Manual

/-- The text of a page. -/
def Page.text : Page → String
  | grammar => Manual.grammarPage
  | operators => Manual.operatorsPage
  | comparisons => Manual.comparisonsPage
  | literals => Manual.literalsPage
  | escapes => Manual.escapesPage

end ResourceQuery.Command
