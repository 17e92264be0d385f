/-!
# Media types

The content types that announce JSON: `application/json` and `application/…+json`, whatever their case
and whatever parameters follow. A content type that breaks the grammar announces nothing.
-/

namespace DaemonBridge.Http

/-- A character of a name in a header. -/
def isTokenChar (c : Char) : Bool :=
  c.isAlphanum || "!#$%&'+-.^_`|~".toList.contains c

/-- How far the parameters of a media type have been read. -/
inductive ParameterState where
  | start
  | name
  | valueStart
  | value
  | quoteStart
  | quoted
  | quoteEnd
  | broken
  deriving DecidableEq, Repr

namespace ParameterState

/-- Read one character. Spaces may stand before a name and after a quoted value; a value without quotes
is empty only at the very end. -/
def next : ParameterState → Char → ParameterState
  | start, c => if c = ' ' then start else if isTokenChar c then name else broken
  | name, c => if c = '=' then valueStart else if isTokenChar c then name else broken
  | valueStart, c => if c = '"' then quoteStart else if isTokenChar c then value else broken
  | value, c => if c = ';' then start else if isTokenChar c then value else broken
  | quoteStart, c => if ' ' ≤ c ∧ c ≤ '~' then quoted else broken
  | quoted, c => if c = '"' then quoteEnd else if ' ' ≤ c ∧ c ≤ '~' then quoted else broken
  | quoteEnd, c => if c = ';' then start else if c = ' ' then quoteEnd else broken
  | broken, _ => broken

/-- The parameters may end here. -/
def mayEnd : ParameterState → Bool
  | start | valueStart | value | quoteEnd => true
  | _ => false

end ParameterState

/-- What follows the semicolon after a media type is a list of parameters. -/
def areParameters (text : List Char) : Bool :=
  (text.foldl ParameterState.next .start).mayEnd

/-- Cut a subtype at its last plus sign; without one there is no suffix. -/
def subtypeAndSuffix (subtype : List Char) : List Char × Option (List Char) :=
  match subtype.reverse.dropWhile fun c => c != '+' with
  | [] => (subtype, none)
  | [_] => (subtype, none)
  | _ :: start => (start.reverse, some (subtype.drop (start.length + 1)))

/-- A content type announces JSON. -/
def announcesJson (contentType : String) : Bool :=
  let text := contentType.toList
  let family := text.takeWhile isTokenChar
  match text.dropWhile isTokenChar with
  | '/' :: rest =>
    let (subtype, suffix) := subtypeAndSuffix ((rest.takeWhile isTokenChar).map Char.toLower)
    let wellFormed := match rest.dropWhile isTokenChar with
      | [] => true
      | ';' :: parameters => areParameters parameters
      | _ => false
    wellFormed && family.map Char.toLower == "application".toList &&
      (subtype == "json".toList || suffix == some "json".toList)
  | _ => false

end DaemonBridge.Http
