import Mathlib.Data.List.Basic
import Mathlib.Data.Option.Basic

/-! Base64 with the standard alphabet and canonical padding. -/

namespace Base64

/-- The character of six bits. -/
def charOf (n : Nat) : Char :=
  if n < 26 then .ofNat (n + 'A'.toNat)
  else if n < 52 then .ofNat (n - 26 + 'a'.toNat)
  else if n < 62 then .ofNat (n - 52 + '0'.toNat)
  else if n = 62 then '+' else '/'

/-- The six bits of a character. -/
def valueOf (c : Char) : Option Nat :=
  if c.isUpper then some (c.toNat - 'A'.toNat)
  else if c.isLower then some (c.toNat - 'a'.toNat + 26)
  else if c.isDigit then some (c.toNat - '0'.toNat + 52)
  else if c = '+' then some 62
  else if c = '/' then some 63 else none

def encode : List UInt8 → List Char
  | [] => []
  | [a] => [charOf (a.toNat / 4), charOf (a.toNat % 4 * 16), '=', '=']
  | [a, b] =>
    [charOf (a.toNat / 4), charOf (a.toNat % 4 * 16 + b.toNat / 16), charOf (b.toNat % 16 * 4), '=']
  | a :: b :: c :: rest =>
    charOf (a.toNat / 4) :: charOf (a.toNat % 4 * 16 + b.toNat / 16) ::
      charOf (b.toNat % 16 * 4 + c.toNat / 64) :: charOf (c.toNat % 64) :: encode rest

/-- The three bytes of four digits `v`, `w`, `x` and `y`. -/
def firstOf (v w : Nat) : UInt8 := .ofNat (v * 4 + w / 16)

def secondOf (w x : Nat) : UInt8 := .ofNat (w % 16 * 16 + x / 4)

def thirdOf (x y : Nat) : UInt8 := .ofNat (x % 4 * 64 + y)

/-- The bytes of a text in groups of four. Padding may end it, and the bits it stands for are
zero. -/
def decode : List Char → Option (List UInt8)
  | [] => some []
  | a :: b :: c :: d :: rest => do
    let v ← valueOf a
    let w ← valueOf b
    if d = '=' ∧ rest = [] then
      if c = '=' then if w % 16 = 0 then some [firstOf v w] else none
      else
        let x ← valueOf c
        if x % 4 = 0 then some [firstOf v w, secondOf w x] else none
    else
      let x ← valueOf c
      let y ← valueOf d
      return firstOf v w :: secondOf w x :: thirdOf x y :: (← decode rest)
  | _ => none

theorem valueOf_charOf {n : Nat} (h : n < 64) : valueOf (charOf n) = some n := by
  have hall : ∀ n < 64, valueOf (charOf n) = some n := by decide +kernel
  exact hall n h

theorem charOf_ne_pad {n : Nat} (h : n < 64) : charOf n ≠ '=' := by
  have hall : ∀ n < 64, charOf n ≠ '=' := by decide +kernel
  exact hall n h

theorem mem_encode {c : Char} {bytes : List UInt8} (h : c ∈ encode bytes) :
    c = '=' ∨ ∃ n < 64, c = charOf n := by
  induction bytes using encode.induct with
  | case1 => cases h
  | case2 a =>
    have ha := a.toNat_lt
    simp only [encode, List.mem_cons, List.not_mem_nil, or_false] at h
    rcases h with rfl | rfl | rfl | rfl
    · exact .inr ⟨_, by omega, rfl⟩
    · exact .inr ⟨_, by omega, rfl⟩
    · exact .inl rfl
    · exact .inl rfl
  | case3 a b =>
    have ha := a.toNat_lt
    have hb := b.toNat_lt
    simp only [encode, List.mem_cons, List.not_mem_nil, or_false] at h
    rcases h with rfl | rfl | rfl | rfl
    · exact .inr ⟨_, by omega, rfl⟩
    · exact .inr ⟨_, by omega, rfl⟩
    · exact .inr ⟨_, by omega, rfl⟩
    · exact .inl rfl
  | case4 a b c rest ih =>
    have ha := a.toNat_lt
    have hb := b.toNat_lt
    have hc := c.toNat_lt
    rw [encode] at h
    simp only [List.mem_cons] at h
    rcases h with rfl | rfl | rfl | rfl | h
    · exact .inr ⟨_, by omega, rfl⟩
    · exact .inr ⟨_, by omega, rfl⟩
    · exact .inr ⟨_, by omega, rfl⟩
    · exact .inr ⟨_, by omega, rfl⟩
    · exact ih h

theorem ofNat_eq {n : Nat} {a : UInt8} (h : n = a.toNat) : UInt8.ofNat n = a := by
  rw [h, UInt8.ofNat_toNat]

theorem firstOf_eq (a b : UInt8) : firstOf (a.toNat / 4) (a.toNat % 4 * 16 + b.toNat / 16) = a := by
  have hb := b.toNat_lt
  exact ofNat_eq (by omega)

theorem secondOf_eq (a b c : UInt8) :
    secondOf (a.toNat % 4 * 16 + b.toNat / 16) (b.toNat % 16 * 4 + c.toNat / 64) = b := by
  have hb := b.toNat_lt
  have hc := c.toNat_lt
  exact ofNat_eq (by omega)

theorem thirdOf_eq (b c : UInt8) :
    thirdOf (b.toNat % 16 * 4 + c.toNat / 64) (c.toNat % 64) = c := by
  have hc := c.toNat_lt
  exact ofNat_eq (by omega)

/-- Decoding gives back the bytes encoded. -/
theorem decode_encode (bytes : List UInt8) : decode (encode bytes) = some bytes := by
  induction bytes using encode.induct with
  | case1 => rfl
  | case2 a =>
    have ha := a.toNat_lt
    have hfirst : firstOf (a.toNat / 4) (a.toNat % 4 * 16) = a := firstOf_eq a 0
    rw [encode, decode, valueOf_charOf (by omega), valueOf_charOf (by omega)]
    simp [hfirst]
  | case3 a b =>
    have ha := a.toNat_lt
    have hb := b.toNat_lt
    have hpad : charOf (b.toNat % 16 * 4) ≠ '=' := charOf_ne_pad (by omega)
    have hsecond : secondOf (a.toNat % 4 * 16 + b.toNat / 16) (b.toNat % 16 * 4) = b :=
      secondOf_eq a b 0
    rw [encode, decode, valueOf_charOf (by omega), valueOf_charOf (by omega),
      valueOf_charOf (by omega)]
    simp [hpad, firstOf_eq, hsecond]
  | case4 a b c rest ih =>
    have ha := a.toNat_lt
    have hb := b.toNat_lt
    have hc := c.toNat_lt
    have hpad : charOf (c.toNat % 64) ≠ '=' := charOf_ne_pad (by omega)
    rw [encode, decode, valueOf_charOf (by omega), valueOf_charOf (by omega),
      valueOf_charOf (by omega), valueOf_charOf (by omega), ih]
    simp [hpad, firstOf_eq, secondOf_eq, thirdOf_eq]

end Base64
