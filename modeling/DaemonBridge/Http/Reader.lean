import DaemonBridge.Http.Message

/-!
# Responses as bytes

A response is read from everything that comes before the connection closes: a status line and header
lines up to an empty line, then a body whose extent the headers tell. Either part can fail to be one.
-/

namespace DaemonBridge.Http

/-- What the bytes of a response hold. -/
inductive Reading where
  | noHead
  | noBody
  | response (response : Response)
  deriving DecidableEq, Repr

/-- A header with its name in lower case. -/
abbrev Header := List Char × List Char

/-- The number that at least one digit and nothing else stands for. -/
def digitsValue? (text : List Char) : Option UInt64 :=
  (Text.readNat? text).bind Text.toUInt64?

/-- A character that may stand in a phrase or in the value of a header. -/
def isFieldByte (b : UInt8) : Bool :=
  b == 0x09 || (0x20 ≤ b && b != 0x7f)

/-- A character of the name of a header. -/
def isNameByte (b : UInt8) : Bool :=
  let c := Char.ofUInt8 b
  b < 0x80 && (c.isAlphanum || "!#$%&'*+-.^_`|~".toList.contains c)

/-- The first line, without the line feed and a carriage return before it, and what follows. -/
def cutLine (bytes : List UInt8) : Option (List UInt8 × List UInt8) :=
  match bytes.dropWhile (· != 0x0a) with
  | [] => none
  | _ :: rest =>
    let line := bytes.takeWhile (· != 0x0a)
    some (if line.getLast? == some 0x0d then line.dropLast else line, rest)

/-- The lines before the first empty line and what follows that line; `fuel` bounds the number of lines. -/
def cutHead : Nat → List UInt8 → Option (List (List UInt8) × List UInt8)
  | 0, _ => none
  | fuel + 1, bytes =>
    match cutLine bytes with
    | none => none
    | some ([], rest) => some ([], rest)
    | some (line, rest) => (cutHead fuel rest).map fun (lines, rest) => (line :: lines, rest)

/-- Blanks around the value of a header. -/
def trimField (bytes : List UInt8) : List UInt8 :=
  let blank : UInt8 → Bool := fun b => b == 0x20 || b == 0x09
  ((bytes.dropWhile blank).reverse.dropWhile blank).reverse

/-- A header line. -/
def header? (line : List UInt8) : Option Header :=
  let name := line.takeWhile isNameByte
  match line.dropWhile isNameByte with
  | 0x3a :: value =>
    if name.isEmpty || !value.all isFieldByte then none
    else some (name.map fun b => (Char.ofUInt8 b).toLower, (trimField value).map Char.ofUInt8)
  | _ => none

/-- A status line: whether it is of version 1.1, and the status. -/
def statusLine? (line : List UInt8) : Option (Bool × Nat) :=
  match line.map Char.ofUInt8 with
  | 'H' :: 'T' :: 'T' :: 'P' :: '/' :: '1' :: '.' :: minor :: ' ' :: a :: b :: c :: rest =>
    let phraseFits := match rest with
      | [] => true
      | ' ' :: phrase => phrase.all fun c => isFieldByte (UInt8.ofNat c.toNat)
      | _ => false
    match Text.readNat? [a, b, c] with
    | some status =>
      if (minor == '0' || minor == '1') && phraseFits && 100 ≤ status then some (minor == '1', status)
      else none
    | none => none
  | _ => none

/-- The size of a chunk, from the line before it; what follows a semicolon or a blank does not count. -/
def chunkSize? (line : List UInt8) : Option Nat :=
  let digits := line.takeWhile fun b => (Text.hexByteValue? b).isSome
  let rest := line.dropWhile fun b => (Text.hexByteValue? b).isSome
  let fits := match rest with
    | [] => true
    | b :: _ => b == 0x3b || b == 0x20 || b == 0x09
  if digits.isEmpty || 16 < digits.length || !fits then none
  else some (digits.foldl (fun n b => 16 * n + (Text.hexByteValue? b).getD 0) 0)

/-- A body in chunks, each behind a line with its size, up to a chunk of size zero and an empty line;
`fuel` bounds the number of chunks. -/
def chunkedBody? : Nat → List UInt8 → Option (List UInt8)
  | 0, _ => none
  | fuel + 1, bytes =>
    match cutLine bytes with
    | none => none
    | some (line, rest) =>
      match chunkSize? line with
      | none => none
      | some 0 => (cutHead (rest.length + 1) rest).map fun _ => []
      | some size =>
        match rest.drop size with
        | 0x0d :: 0x0a :: more => (chunkedBody? fuel more).map (rest.take size ++ ·)
        | _ => none

/-- How the extent of a body is told. -/
inductive Extent where
  | length (n : Nat)
  | chunked
  | untilClose
  deriving DecidableEq, Repr

/-- The values of the headers of a name. -/
def valuesOf (name : String) (headers : List Header) : List (List Char) :=
  (headers.filter fun h => h.1 == name.toList).map Prod.snd

/-- The extent that the headers tell, unless they contradict each other. -/
def extent? (version11 : Bool) (status : Nat) (headers : List Header) : Option Extent :=
  let codings := valuesOf "transfer-encoding" headers
  let lengths := (valuesOf "content-length" headers).flatMap (Text.splitAll ',')
  let trimmed (text : List Char) : List Char :=
    ((text.dropWhile (· == ' ')).reverse.dropWhile (· == ' ')).reverse
  if status == 204 || status == 304 || status == 101 then some (.length 0)
  else if !codings.isEmpty then
    if !version11 then none
    else match (codings.flatMap (Text.splitAll ',')).getLast? with
      | some coding =>
        some (if (trimmed coding).map Char.toLower == "chunked".toList then .chunked else .untilClose)
      | none => some .untilClose
  else match lengths with
    | [] => some .untilClose
    | first :: others =>
      match digitsValue? (trimmed first) with
      | some n =>
        if others.all fun other => digitsValue? (trimmed other) == some n then some (.length n.toNat)
        else none
      | none => none

/-- The body of an extent. -/
def bodyOf? (bytes : List UInt8) : Extent → Option (List UInt8)
  | .length n => if n ≤ bytes.length then some (bytes.take n) else none
  | .chunked => chunkedBody? (bytes.length + 1) bytes
  | .untilClose => some bytes

/-- Read a response; `fuel` bounds the number of interim responses that are passed over. -/
def readResponse : Nat → List UInt8 → Reading
  | 0, _ => .noHead
  | fuel + 1, bytes =>
    match cutHead (bytes.length + 1) (bytes.dropWhile fun b => b == 0x0d || b == 0x0a) with
    | some (first :: lines, rest) =>
      match statusLine? first, lines.mapM header? with
      | some (version11, status), some headers =>
        if status < 200 && status != 101 then readResponse fuel rest
        else match extent? version11 status headers with
          | none => .noHead
          | some extent =>
            match bodyOf? rest extent with
            | none => .noBody
            | some body => .response ⟨status, body⟩
      | _, _ => .noHead
    | _ => .noHead

/-- What the bytes of a response hold. -/
def Reading.ofBytes (bytes : List UInt8) : Reading :=
  readResponse (bytes.length + 1) bytes

end DaemonBridge.Http
