/-! Texts as octets. -/

namespace DocGrid.Text

def isTail (b : UInt8) : Bool :=
  decide (0x80 ≤ b) && decide (b ≤ 0xBF)

def tailBits (b : UInt8) : Nat :=
  b.toNat - 0x80

/-- The first character and the octets after it. Only the shortest form of a character counts, and
surrogates are none. -/
def utf8Char? : List UInt8 → Option (Char × List UInt8)
  | [] => none
  | a :: rest =>
    if a < 0x80 then some (Char.ofNat a.toNat, rest)
    else if 0xC2 ≤ a ∧ a ≤ 0xDF then
      match rest with
      | b :: rest =>
        if isTail b then some (Char.ofNat ((a.toNat - 0xC0) * 0x40 + tailBits b), rest) else none
      | _ => none
    else if 0xE0 ≤ a ∧ a ≤ 0xEF then
      match rest with
      | b :: c :: rest =>
        let n := (a.toNat - 0xE0) * 0x1000 + tailBits b * 0x40 + tailBits c
        if isTail b && isTail c && decide (0x800 ≤ n) &&
            !(decide (0xD800 ≤ n) && decide (n < 0xE000))
        then some (Char.ofNat n, rest) else none
      | _ => none
    else if 0xF0 ≤ a ∧ a ≤ 0xF4 then
      match rest with
      | b :: c :: d :: rest =>
        let n := (a.toNat - 0xF0) * 0x40000 + tailBits b * 0x1000 + tailBits c * 0x40 + tailBits d
        if isTail b && isTail c && isTail d && decide (0x10000 ≤ n) && decide (n ≤ 0x10FFFF)
        then some (Char.ofNat n, rest) else none
      | _ => none
    else none

def utf8From : Nat → List UInt8 → Option (List Char)
  | _, [] => some []
  | 0, _ :: _ => none
  | fuel + 1, bs => do
    let (c, rest) ← utf8Char? bs
    return c :: (← utf8From fuel rest)

/-- The text that octets write, if they write one. -/
def utf8? (bs : List UInt8) : Option (List Char) :=
  utf8From bs.length bs

end DocGrid.Text
