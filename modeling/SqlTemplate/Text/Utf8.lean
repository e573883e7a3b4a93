/-!
# Reading bytes as text

* `decodeLossy`: the text of a byte string, with one replacement character in place of every
  longest run of bytes that begins a character and does not complete it, and of every byte that
  begins none;
* `decode?`: the text of a byte string that is the encoding of one.
-/

namespace SqlTemplate.Text

/-- What stands for bytes that are no text. -/
def replacementChar : Char := Char.ofNat 0xFFFD

/-- How many bytes follow a leading byte, and the range of the first of them. Overlong forms,
    surrogates and code points beyond the last are excluded by that range. -/
def follow? (lead : Nat) : Option (Nat × Nat × Nat) :=
  if 0xC2 ≤ lead ∧ lead ≤ 0xDF then some (1, 0x80, 0xBF)
  else if lead = 0xE0 then some (2, 0xA0, 0xBF)
  else if lead = 0xED then some (2, 0x80, 0x9F)
  else if 0xE1 ≤ lead ∧ lead ≤ 0xEF then some (2, 0x80, 0xBF)
  else if lead = 0xF0 then some (3, 0x90, 0xBF)
  else if 0xF1 ≤ lead ∧ lead ≤ 0xF3 then some (3, 0x80, 0xBF)
  else if lead = 0xF4 then some (3, 0x80, 0x8F)
  else none

/-- The payload of a continuation byte. -/
def tailBits? (b : UInt8) : Option Nat :=
  if 0x80 ≤ b.toNat ∧ b.toNat ≤ 0xBF then some (b.toNat - 0x80) else none

/-- The text of a byte string. -/
def decodeLossy : List UInt8 → List Char
  | [] => []
  | b0 :: r0 =>
    let n0 := b0.toNat
    if n0 < 0x80 then Char.ofNat n0 :: decodeLossy r0
    else
      match follow? n0 with
      | none => replacementChar :: decodeLossy r0
      | some (count, low, high) =>
        match r0 with
        | [] => [replacementChar]
        | b1 :: r1 =>
          let n1 := b1.toNat
          if n1 < low || high < n1 then replacementChar :: decodeLossy (b1 :: r1)
          else if count = 1 then
            Char.ofNat ((n0 - 0xC0) * 64 + (n1 - 0x80)) :: decodeLossy r1
          else
            match r1 with
            | [] => [replacementChar]
            | b2 :: r2 =>
              match tailBits? b2 with
              | none => replacementChar :: decodeLossy (b2 :: r2)
              | some n2 =>
                if count = 2 then
                  Char.ofNat ((n0 - 0xE0) * 4096 + (n1 - 0x80) * 64 + n2) :: decodeLossy r2
                else
                  match r2 with
                  | [] => [replacementChar]
                  | b3 :: r3 =>
                    match tailBits? b3 with
                    | none => replacementChar :: decodeLossy (b3 :: r3)
                    | some n3 =>
                      Char.ofNat
                          ((n0 - 0xF0) * 262144 + (n1 - 0x80) * 4096 + n2 * 64 + n3) ::
                        decodeLossy r3

/-- The text that a byte string encodes, if it encodes one. -/
def decode? (bs : List UInt8) : Option String := String.fromUTF8? ⟨bs.toArray⟩

end SqlTemplate.Text
