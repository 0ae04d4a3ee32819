/-
Reading bytes as text.

A text is a row of characters of one to four bytes.  The first byte of a character
says how many continuation bytes follow; for some first bytes the second byte is
confined further, so that every character has one spelling only and no surrogate has
any.  A defect is reported with the bytes that are at fault and with its nature: a
byte that starts no character, a byte that does not continue one, or bytes missing at
the end.
-/
namespace Eel.Utf8

/-- The nature of a defect. -/
inductive Defect where
  | badStart
  | badContinuation
  | truncated
deriving DecidableEq, Repr

/-- A defect and the bytes at fault: `first`, where they start, and how many they are. -/
structure DecodeError where
  defect : Defect
  first : UInt8
  start : Nat
  count : Nat
deriving DecidableEq, Repr

/-- The wording of a defect. -/
def Defect.reason : Defect → String
  | badStart => "invalid start byte"
  | badContinuation => "invalid continuation byte"
  | truncated => "unexpected end of data"

/-- Two hexadecimal digits. -/
def hexByte (b : UInt8) : String :=
  String.ofList [Nat.digitChar (b.toNat / 16), Nat.digitChar (b.toNat % 16)]

/-- The wording of the report. -/
def DecodeError.message (e : DecodeError) : String :=
  let place :=
    if e.count = 1 then "byte 0x" ++ hexByte e.first ++ " in position " ++ toString e.start
    else "bytes in position " ++ toString e.start ++ "-" ++ toString (e.start + e.count - 1)
  "'utf-8' codec can't decode " ++ place ++ ": " ++ e.defect.reason

/-- What a first byte calls for: its payload, how many bytes follow, and the range of the second. -/
structure Lead where
  payload : Nat
  following : Nat
  low : Nat := 0x80
  high : Nat := 0xBF

/-- The meaning of a first byte, if it has one. -/
def lead? (b : UInt8) : Option Lead :=
  let n := b.toNat
  if n < 0x80 then some ⟨n, 0, 0x80, 0xBF⟩
  else if n < 0xC2 then none
  else if n < 0xE0 then some ⟨n % 0x20, 1, 0x80, 0xBF⟩
  else if n = 0xE0 then some ⟨n % 0x10, 2, 0xA0, 0xBF⟩
  else if n = 0xED then some ⟨n % 0x10, 2, 0x80, 0x9F⟩
  else if n < 0xF0 then some ⟨n % 0x10, 2, 0x80, 0xBF⟩
  else if n = 0xF0 then some ⟨n % 0x08, 3, 0x90, 0xBF⟩
  else if n < 0xF4 then some ⟨n % 0x08, 3, 0x80, 0xBF⟩
  else if n = 0xF4 then some ⟨n % 0x08, 3, 0x80, 0x8F⟩
  else none

/--
Reads `following` continuation bytes onto `payload`; the first has to lie between `low` and
`high`.  A defect comes with the number of bytes read before it.
-/
def continuation (payload : Nat) : (following low high : Nat) → List UInt8 →
    Except (Defect × Nat) (Nat × List UInt8)
  | 0, _, _, bytes => .ok (payload, bytes)
  | _ + 1, _, _, [] => .error (.truncated, 0)
  | following + 1, low, high, b :: bytes =>
    if low ≤ b.toNat && b.toNat ≤ high then
      match continuation (payload * 0x40 + b.toNat % 0x40) following 0x80 0xBF bytes with
      | .ok r => .ok r
      | .error (d, n) => .error (d, n + 1)
    else .error (.badContinuation, 0)

theorem length_continuation {payload following low high : Nat} {bytes : List UInt8}
    {r : Nat × List UInt8} (h : continuation payload following low high bytes = .ok r) :
    r.2.length ≤ bytes.length := by
  induction following generalizing payload low high bytes with
  | zero => simp [continuation] at h; simp [← h]
  | succ n ih =>
    cases bytes with
    | nil => simp [continuation] at h
    | cons b bytes =>
      simp only [continuation] at h
      split at h
      · split at h
        · rename_i r' hr
          cases h
          have := ih hr
          simp only [List.length_cons]
          omega
        · cases h
      · cases h

/-- Reads bytes, of which the first stands at position `start`. -/
def decodeFrom (start : Nat) (bytes : List UInt8) : Except DecodeError (List Char) :=
  match bytes with
  | [] => .ok []
  | b :: rest =>
    match lead? b with
    | none => .error ⟨.badStart, b, start, 1⟩
    | some lead =>
      match _read : continuation lead.payload lead.following lead.low lead.high rest with
      | .error (defect, n) => .error ⟨defect, b, start, n + 1⟩
      | .ok (code, rest') =>
        match decodeFrom (start + lead.following + 1) rest' with
        | .error e => .error e
        | .ok cs => .ok (Char.ofNat code :: cs)
termination_by bytes.length
decreasing_by
  have : rest'.length ≤ rest.length := length_continuation _read
  simp only [List.length_cons]
  omega

/-- Reads bytes as text. -/
def decode (bytes : List UInt8) : Except DecodeError (List Char) := decodeFrom 0 bytes

/-- Line ends of all three spellings made into line feeds. -/
def unifyLineEnds : List Char → List Char
  | [] => []
  | '\r' :: '\n' :: cs => '\n' :: unifyLineEnds cs
  | '\r' :: cs => '\n' :: unifyLineEnds cs
  | c :: cs => c :: unifyLineEnds cs

end Eel.Utf8
