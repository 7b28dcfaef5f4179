/-! UTF-8 read with substitution: bytes that belong to no character become
U+FFFD, one for each longest start of a character that is broken off. -/
namespace DocSite.Text.Utf8

/-- How many bytes a leading byte asks for after itself, with the bounds on the
first of them. -/
def follow? (lead : UInt8) : Option (Nat × UInt8 × UInt8) :=
  if 0xC2 ≤ lead && lead ≤ 0xDF then some (1, 0x80, 0xBF)
  else if lead == 0xE0 then some (2, 0xA0, 0xBF)
  else if 0xE1 ≤ lead && lead ≤ 0xEC then some (2, 0x80, 0xBF)
  else if lead == 0xED then some (2, 0x80, 0x9F)
  else if lead == 0xEE || lead == 0xEF then some (2, 0x80, 0xBF)
  else if lead == 0xF0 then some (3, 0x90, 0xBF)
  else if 0xF1 ≤ lead && lead ≤ 0xF3 then some (3, 0x80, 0xBF)
  else if lead == 0xF4 then some (3, 0x80, 0x8F)
  else none

/-- Reads `count` more bytes of a character whose bits so far are `bits`. `none`
stands for a character that is broken off before the returned bytes. -/
def continueChar (count : Nat) (low high : UInt8) (bits : Nat) :
    List UInt8 → Option Nat × List UInt8
  | [] => (if count = 0 then some bits else none, [])
  | b :: rest =>
    match count with
    | 0 => (some bits, b :: rest)
    | more + 1 =>
      if low ≤ b && b ≤ high then
        continueChar more 0x80 0xBF (bits * 64 + (b &&& 0x3F).toNat) rest
      else (none, b :: rest)

theorem length_continueChar (count : Nat) (low high : UInt8) (bits : Nat) (bs : List UInt8) :
    (continueChar count low high bits bs).2.length ≤ bs.length := by
  induction bs generalizing count low high bits with
  | nil => simp [continueChar]
  | cons b rest ih =>
      cases count with
      | zero => simp [continueChar]
      | succ more =>
          simp only [continueChar]
          split
          · exact Nat.le_succ_of_le (ih ..)
          · simp

def replacement : Char := Char.ofNat 0xFFFD

def leadBits (count : Nat) (lead : UInt8) : Nat :=
  (lead &&& (if count = 1 then 0x1F else if count = 2 then 0x0F else 0x07)).toNat

def decodeChars (bs : List UInt8) : List Char :=
  match bs with
  | [] => []
  | b :: rest =>
    if b < 0x80 then Char.ofNat b.toNat :: decodeChars rest
    else match follow? b with
      | none => replacement :: decodeChars rest
      | some (count, low, high) =>
        let read := continueChar count low high (leadBits count b) rest
        (match read.1 with
          | some n => Char.ofNat n
          | none => replacement) :: decodeChars read.2
termination_by bs.length
decreasing_by
  all_goals simp only [List.length_cons]
  · omega
  · omega
  · have := length_continueChar count low high (leadBits count b) rest
    omega

/-- Text from bytes, with U+FFFD for what is not UTF-8. -/
def decode (bytes : ByteArray) : String :=
  match String.fromUTF8? bytes with
  | some text => text
  | none => String.ofList (decodeChars bytes.toList)

end DocSite.Text.Utf8
