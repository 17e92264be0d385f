/-!
# UTF-8 text

Bytes read as pieces: characters, and the stretches of bytes between them that encode none. A
stretch is as long as it could still have become a character, so one replacement character stands
for each. Reading back the bytes of a text gives exactly its characters (`pieces_encode`).
-/

namespace DaemonBridge.Text

/-- What a stretch of bytes holds: one character, or bytes that encode none. -/
inductive Piece where
  | char (c : Char)
  | stray (bytes : List UInt8)
  deriving Repr, DecidableEq

namespace Piece

/-- The number of bytes the piece was read from. -/
def width : Piece → Nat
  | .char c => c.utf8Size
  | .stray bytes => bytes.length

/-- The character, when the piece is one. -/
def char? : Piece → Option Char
  | .char c => some c
  | .stray _ => none

/-- The character, with U+FFFD for bytes that encode none. -/
def orReplacement : Piece → Char
  | .char c => c
  | .stray _ => '\ufffd'

end Piece

/-- The second bytes that may follow a lead byte; an empty range follows a byte that leads nothing. -/
def secondByteRange (lead : UInt8) : UInt8 × UInt8 :=
  if lead == 0xe0 then (0xa0, 0xbf)
  else if lead == 0xed then (0x80, 0x9f)
  else if lead == 0xf0 then (0x90, 0xbf)
  else if lead == 0xf4 then (0x80, 0x8f)
  else if 0xc2 ≤ lead && lead ≤ 0xf3 then (0x80, 0xbf)
  else (1, 0)

/-- The number of bytes, after the first two, that a lead byte announces. -/
def trailingBytes (lead : UInt8) : Nat :=
  if lead < 0xe0 then 0 else if lead < 0xf0 then 1 else 2

/-- The longest start of `lead :: rest` that could still have become a character, and at least the lead. -/
def strayBytes (lead : UInt8) (rest : List UInt8) : List UInt8 :=
  match rest with
  | [] => [lead]
  | second :: more =>
    let (low, high) := secondByteRange lead
    if low ≤ second && second ≤ high then
      lead :: second :: (more.take (trailingBytes lead)).takeWhile fun b => 0x80 ≤ b && b ≤ 0xbf
    else [lead]

/-- The piece that starts with the byte `lead`. -/
def leadingPiece (lead : UInt8) (rest : List UInt8) : Piece :=
  match (List.toByteArray (lead :: rest.take 3)).utf8DecodeChar? 0 with
  | some c => .char c
  | none => .stray (strayBytes lead rest)

/-- Skip the bytes already read, then read the pieces one by one. -/
def piecesAfter : Nat → List UInt8 → List Piece
  | _, [] => []
  | skip + 1, _ :: rest => piecesAfter skip rest
  | 0, lead :: rest =>
    let piece := leadingPiece lead rest
    piece :: piecesAfter (piece.width - 1) rest

/-- Read bytes as pieces. -/
def pieces (bytes : List UInt8) : List Piece :=
  piecesAfter 0 bytes

/-- The bytes of a text. -/
def encode (text : List Char) : List UInt8 :=
  text.flatMap String.utf8EncodeChar

/-- The text of the bytes, when all of them encode characters. -/
def decode? (bytes : List UInt8) : Option (List Char) :=
  (pieces bytes).mapM Piece.char?

/-- The text of the bytes, with U+FFFD for each stretch that encodes none. -/
def decodeLossy (bytes : List UInt8) : List Char :=
  (pieces bytes).map Piece.orReplacement

theorem piecesAfter_append (read rest : List UInt8) :
    piecesAfter read.length (read ++ rest) = piecesAfter 0 rest := by
  induction read with
  | nil => rfl
  | cons b read ih => exact ih

/-- An encoded character is the leading piece of what it starts. -/
theorem leadingPiece_encode (c : Char) (lead : UInt8) (more rest : List UInt8)
    (h : String.utf8EncodeChar c = lead :: more) : leadingPiece lead (more ++ rest) = .char c := by
  have hlen : more.length ≤ 3 := by
    have := String.length_utf8EncodeChar c
    have := Char.utf8Size_le_four c
    simp only [h, List.length_cons] at *
    omega
  have hbytes : lead :: (more ++ rest).take 3 =
      String.utf8EncodeChar c ++ rest.take (3 - more.length) := by
    rw [h, List.take_append, List.take_of_length_le hlen, List.cons_append]
  simp only [leadingPiece, hbytes, List.toByteArray_append, ByteArray.utf8DecodeChar?_utf8EncodeChar_append]

/-- An encoded character is read as one piece, and what follows it as before. -/
theorem pieces_encodeChar_append (c : Char) (rest : List UInt8) :
    pieces (String.utf8EncodeChar c ++ rest) = .char c :: pieces rest := by
  cases h : String.utf8EncodeChar c with
  | nil => exact absurd h String.utf8EncodeChar_ne_nil
  | cons lead more =>
    have hwidth : c.utf8Size - 1 = more.length := by
      have := String.length_utf8EncodeChar c
      simp only [h, List.length_cons] at this
      omega
    simp only [pieces, List.cons_append, piecesAfter, leadingPiece_encode c lead more rest h,
      Piece.width, hwidth, piecesAfter_append]

/-- The bytes of a text are read back as its characters. -/
theorem pieces_encode (text : List Char) : pieces (encode text) = text.map Piece.char := by
  induction text with
  | nil => rfl
  | cons c text ih =>
    simp only [encode, List.flatMap_cons, List.map_cons, pieces_encodeChar_append] at *
    rw [ih]

/-- The bytes of a text decode to the text. -/
theorem decode?_encode (text : List Char) : decode? (encode text) = some text := by
  simp only [decode?, pieces_encode]
  induction text with
  | nil => rfl
  | cons c text ih => simp [Piece.char?, ih]

end DaemonBridge.Text
