/-!
# Media types

What the body of a request is, as its client declares it: a type and a subtype, and then parameters,
of which only the form matters here.  A media type is JSON if it is `application/json` or a type of
applications with the suffix `+json`; letters may be in either case.
-/

set_option autoImplicit false

namespace Pulse.Api

/-- What a body is. -/
structure MediaType where
  type : String
  subtype : String
  /-- What follows the last `+`. -/
  suffix : Option String
deriving DecidableEq, Repr

namespace MediaType

/-- The characters of tokens. -/
def isTokenChar (c : Char) : Bool :=
  c.isAlphanum || "!#$%&'*+-.^_`|~".toList.contains c

/-- How far a list of parameters has been read. -/
inductive Params where
  /-- A name may start here. -/
  | start
  | name
  /-- A value starts here. -/
  | equals
  | value
  /-- A value in quotes starts here. -/
  | quote
  | quoted
  /-- A value in quotes has ended. -/
  | unquoted
deriving DecidableEq, Repr

/-- Reads one more character. -/
def Params.step (c : Char) : Params → Option Params
  | start => if c = ' ' then some start else if isTokenChar c then some name else none
  | name => if c = '=' then some equals else if isTokenChar c then some name else none
  | equals => if c = '"' then some quote else if isTokenChar c then some value else none
  | value => if c = ';' then some start else if isTokenChar c then some value else none
  | quote => if ' ' ≤ c && c ≠ '\x7f' then some quoted else none
  | quoted =>
    if c = '"' then some unquoted else if ' ' ≤ c && c ≠ '\x7f' then some quoted else none
  | unquoted => if c = ';' then some start else if c = ' ' then some unquoted else none

/-- The parameters may end here. -/
def Params.mayEnd : Params → Bool
  | start | equals | value | unquoted => true
  | name | quote | quoted => false

/-- A list of parameters has the right form. -/
def areParams (s : List Char) : Bool :=
  (s.foldlM (fun state c => Params.step c state) Params.start).any Params.mayEnd

/-- A subtype without its suffix, and the suffix. -/
def splitSuffix (s : List Char) : List Char × Option (List Char) :=
  let last := (s.reverse.takeWhile (· ≠ '+')).reverse
  if last.length + 1 < s.length then (s.take (s.length - last.length - 1), some last) else (s, none)

/-- Reads a media type. -/
def parse? (s : String) : Option MediaType :=
  let lower (s : List Char) := String.ofList (s.map Char.toLower)
  let type := s.toList.takeWhile isTokenChar
  match s.toList.drop type.length with
  | '/' :: rest =>
    let subtype := rest.takeWhile isTokenChar
    let params := rest.drop subtype.length
    let wellFormed := match params with
      | [] => true
      | c :: params => (c = ';' || c = ' ') && areParams params
    if type.isEmpty || subtype.isEmpty || !wellFormed then none
    else
      let (subtype, suffix) := splitSuffix subtype
      some ⟨lower type, lower subtype, suffix.map lower⟩
  | _ => none

/-- The body is JSON. -/
def isJson (m : MediaType) : Bool :=
  m.type = "application" && (m.subtype = "json" || m.suffix = some "json")

end MediaType

end Pulse.Api
