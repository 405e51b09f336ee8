import Vpnmgr.Library.Fields
import Vpnmgr.Library.Ieee
import Vpnmgr.Library.Text
import Mathlib.Data.List.TakeWhile

/-! JSON documents as trees: how a tree is written on one line, that reading the line gives the tree
back, and how values are read from it. -/

namespace Json

open Fields Ieee

inductive Value where
  | null
  | bool (b : Bool)
  | int (n : Int)
  | number (q : ℚ)
  | string (s : String)
  | array (vs : List Value)
  | object (r : List (String × Value))

namespace Value

variable {ε α : Type}

def asString : Value → Decoded ε String
  | string s => .ok s
  | _ => .error (.invalidType "a string")

def asBool : Value → Decoded ε Bool
  | bool b => .ok b
  | _ => .error (.invalidType "a boolean")

/-- An unsigned integer of any size. -/
def asNat : Value → Decoded ε Nat
  | int (.ofNat n) => .ok n
  | _ => .error (.invalidType "an unsigned integer")

def asU64 : Value → Decoded ε UInt64
  | int (.ofNat n) =>
    if n < 2 ^ 64 then .ok (UInt64.ofNat n) else .error (.invalidValue "u64")
  | _ => .error (.invalidType "u64")

/-- A double, for which an integer will do. -/
def asFloat : Value → Decoded ε F64
  | number q => .ok (.finite q)
  | int n => .ok (.finite n)
  | _ => .error (.invalidType "f64")

/-- A value, or nothing for null. -/
def asOption (decode : Value → Decoded ε α) : Value → Decoded ε (Option α)
  | null => .ok none
  | v => (decode v).map some

def asList (decode : Value → Decoded ε α) : Value → Decoded ε (List α)
  | array vs => vs.mapM decode
  | _ => .error (.invalidType "a sequence")

def asStruct (decode : Record Value → Decoded ε α) : Value → Decoded ε α
  | object r => decode r
  | _ => .error (.invalidType "a map")

def ofNat (n : Nat) : Value := int n

/-- What is no finite number is written as null. -/
def ofFloat : F64 → Value
  | .finite q => number q
  | _ => null

def ofOption (encode : α → Value) : Option α → Value
  | some a => encode a
  | none => null

def ofList (encode : α → Value) (as : List α) : Value := array (as.map encode)

theorem asU64_ofNat (n : UInt64) : asU64 (ofNat n.toNat) = (.ok n : Decoded ε UInt64) := by
  refine (if_pos n.toNat_lt).trans ?_
  rw [UInt64.ofNat_toNat]

/-- A double comes back exactly when it is a finite number. -/
theorem asFloat_ofFloat {x : F64} :
    asFloat (ofFloat x) = (.ok x : Decoded ε F64) ↔ x.isFinite = true := by
  cases x <;> simp [asFloat, ofFloat, F64.isFinite]

theorem asOption_of_ne_null {decode : Value → Decoded ε α} {v : Value} (h : v ≠ null) :
    asOption decode v = (decode v).map some := by
  cases v with
  | null => exact absurd rfl h
  | _ => rfl

theorem asOption_ofOption {encode : α → Value} {decode : Value → Decoded ε α}
    (h : ∀ a, encode a ≠ null) {o : Option α} :
    asOption decode (ofOption encode o) = .ok o ↔ ∀ a, o = some a → decode (encode a) = .ok a := by
  cases o with
  | none => exact ⟨fun _ a ha => (by cases ha), fun _ => rfl⟩
  | some a =>
    rw [ofOption, asOption_of_ne_null (h a), map_ok]
    constructor
    · rintro ⟨a', hdecode, ha'⟩ b hb
      cases ha'
      cases hb
      exact hdecode
    · exact fun hall => ⟨a, hall a rfl, rfl⟩

theorem asOption_ofFloat {o : Option F64} :
    asOption asFloat (ofOption ofFloat o) = (.ok o : Decoded ε (Option F64)) ↔
      ∀ x, o = some x → x.isFinite = true := by
  cases o with
  | none => exact ⟨fun _ a ha => (by cases ha), fun _ => rfl⟩
  | some x =>
    cases x with
    | finite q => exact ⟨fun _ y hy => (by cases hy; rfl), fun _ => rfl⟩
    | _ => exact ⟨fun h => (by cases h), fun h => absurd (h _ rfl) Bool.false_ne_true⟩

theorem asList_ofList {encode : α → Value} {decode : Value → Decoded ε α} {as : List α} :
    asList decode (ofList encode as) = .ok as ↔ ∀ a ∈ as, decode (encode a) = .ok a := by
  refine ⟨fun h => ?_, mapM_map_ok⟩
  rw [ofList, asList] at h
  induction as with
  | nil => exact fun a ha => by cases ha
  | cons a as ih =>
    rw [List.map_cons, List.mapM_cons] at h
    obtain ⟨b, hb, h⟩ := bind_ok.mp h
    obtain ⟨bs, hbs, h⟩ := bind_ok.mp h
    cases h
    exact List.forall_mem_cons.mpr ⟨hb, ih hbs⟩

theorem asStruct_object (names : List String) (entries : Record Value)
    {decode : (String → Option Value) → Decoded ε α} (hnames : entries.map Prod.fst = names)
    (hnodup : names.Nodup) :
    asStruct (openStruct names decode) (.object entries) = decode fun name => entries.lookup name :=
  openStruct_of_nodup names (hnames ▸ hnodup)

end Value

/-! ### The text of a tree -/

def isSpace (c : Char) : Bool := [' ', '\n', '\t', '\r'].contains c

/-- What the text of a number is made of. -/
def isNumberChar (c : Char) : Bool := c.isDigit || ['-', '+', '.', 'e', 'E'].contains c

/-- How finite doubles are written: with a point or an exponent, and so that they can be told
apart. -/
structure Floats where
  text : ℚ → List Char
  value : List Char → Option ℚ
  number : ∀ q, ∀ c ∈ text q, isNumberChar c = true
  point : ∀ q, ∃ c ∈ text q, c ≠ '-' ∧ c.isDigit = false
  value_text : ∀ q, value (text q) = some q

/-- How a character stands in a string: quotes, backslashes and control characters are escaped. -/
def escape (c : Char) : List Char :=
  if c = '"' then ['\\', '"']
  else if c = '\\' then ['\\', '\\']
  else if c = '\n' then ['\\', 'n']
  else if c = '\r' then ['\\', 'r']
  else if c = '\t' then ['\\', 't']
  else if c.toNat = 0x8 then ['\\', 'b']
  else if c.toNat = 0xc then ['\\', 'f']
  else if c.toNat < 0x20 then
    ['\\', 'u', '0', '0', Nat.digitChar (c.toNat / 16), Nat.digitChar (c.toNat % 16)]
  else [c]

def writeString (s : String) : List Char := '"' :: s.toList.flatMap escape ++ ['"']

def writeInt (n : Int) : List Char :=
  if n < 0 then '-' :: Nat.toDigits 10 n.natAbs else Nat.toDigits 10 n.natAbs

mutual

/-- A tree without any space in its text. -/
def write (floats : Floats) : Value → List Char
  | .null => ['n', 'u', 'l', 'l']
  | .bool true => ['t', 'r', 'u', 'e']
  | .bool false => ['f', 'a', 'l', 's', 'e']
  | .int n => writeInt n
  | .number q => floats.text q
  | .string s => writeString s
  | .array vs => '[' :: [','].intercalate (writes floats vs) ++ [']']
  | .object r => '{' :: [','].intercalate (members floats r) ++ ['}']

def writes (floats : Floats) : List Value → List (List Char)
  | [] => []
  | v :: vs => write floats v :: writes floats vs

def members (floats : Floats) : List (String × Value) → List (List Char)
  | [] => []
  | (name, v) :: r => (writeString name ++ ':' :: write floats v) :: members floats r

end

/-! ### Reading it -/

def skip : List Char → List Char := List.dropWhile isSpace

/-- The value of a hexadecimal digit. -/
def hexValue (c : Char) : Option Nat := (List.range 16).find? fun d => c.toLower = Nat.digitChar d

/-- What a backslash and a letter stand for. -/
def unescape : Char → Option Char
  | '"' => some '"'
  | '\\' => some '\\'
  | '/' => some '/'
  | 'b' => some '\x08'
  | 'f' => some '\x0c'
  | 'n' => some '\n'
  | 'r' => some '\r'
  | 't' => some '\t'
  | _ => none

/-- What a code unit gives after the high surrogate that may stand before it: a character, or a high
surrogate that waits for the other half. -/
def codeUnit (high : Option Nat) (n : Nat) : Option (Char ⊕ Nat) :=
  match high with
  | none =>
    if n < 0xd800 ∨ 0xdfff < n then some (.inl (Char.ofNat n))
    else if n < 0xdc00 then some (.inr n) else none
  | some h =>
    if 0xdc00 ≤ n ∧ n ≤ 0xdfff then
      some (.inl (Char.ofNat (0x10000 + 0x400 * (h - 0xd800) + (n - 0xdc00))))
    else none

/-- A string after its opening quote, and what follows the closing one. -/
def readChars (high : Option Nat) : List Char → Option (List Char × List Char)
  | [] => none
  | c :: cs =>
    if c = '\\' then
      match cs with
      | [] => none
      | e :: cs =>
        if e = 'u' then
          match cs with
          | a :: b :: c :: d :: cs =>
            match ([a, b, c, d].mapM hexValue).bind
              fun ds => codeUnit high (ds.foldl (fun n d => 16 * n + d) 0) with
            | some (.inl c) => (readChars none cs).map fun (s, rest) => (c :: s, rest)
            | some (.inr n) => readChars (some n) cs
            | none => none
          | _ => none
        else
          match high, unescape e with
          | none, some c => (readChars none cs).map fun (s, rest) => (c :: s, rest)
          | _, _ => none
    else if high ≠ none then none
    else if c = '"' then some ([], cs)
    else if c.toNat < 0x20 then none
    else (readChars none cs).map fun (s, rest) => (c :: s, rest)

/-- A natural number without leading zeros. -/
def natOf (cs : List Char) : Option Nat :=
  if cs ≠ [] ∧ cs.all Char.isDigit ∧ (cs.head? ≠ some '0' ∨ cs.length = 1) then
    some (Nat.ofDigitChars 10 cs 0)
  else none

def intOf : List Char → Option Int
  | '-' :: cs => (natOf cs).map fun n : Nat => -(n : Int)
  | cs => (natOf cs).map fun n : Nat => (n : Int)

/-- A number: an integer, or else a double. -/
def readNumber (floats : Floats) (cs : List Char) : Option (Value × List Char) :=
  let text := cs.takeWhile isNumberChar
  let value : Option Value :=
    match intOf text with
    | some n => some (.int n)
    | none => (floats.value text).map .number
  value.map fun v => (v, cs.dropWhile isNumberChar)

/-- A value that holds no others. -/
def readScalar (floats : Floats) : List Char → Option (Value × List Char)
  | '"' :: cs => (readChars none cs).map fun (s, rest) => (.string (String.ofList s), rest)
  | 'n' :: 'u' :: 'l' :: 'l' :: rest => some (.null, rest)
  | 't' :: 'r' :: 'u' :: 'e' :: rest => some (.bool true, rest)
  | 'f' :: 'a' :: 'l' :: 's' :: 'e' :: rest => some (.bool false, rest)
  | cs => readNumber floats cs

section Sequence

variable {α : Type} (item : List Char → Option (α × List Char)) (close : Char)

/-- One item or more with commas between them, up to the closing bracket. -/
def items : Nat → List Char → Option (List α × List Char)
  | 0, _ => none
  | fuel + 1, cs => do
    let (a, rest) ← item cs
    match skip rest with
    | [] => none
    | c :: rest =>
      if c = close then some ([a], rest)
      else if c = ',' then
        let (as, rest) ← items fuel rest
        some (a :: as, rest)
      else none

/-- What stands between brackets, after the opening one. -/
def sequence (cs : List Char) : Option (List α × List Char) :=
  match skip cs with
  | [] => none
  | c :: rest => if c = close then some ([], rest) else items item close (cs.length) cs

end Sequence

/-- A name and a value with a colon between them. -/
def readMember (value : List Char → Option (Value × List Char)) (cs : List Char) :
    Option ((String × Value) × List Char) := do
  let '"' :: cs := skip cs | none
  let (name, cs) ← readChars none cs
  let ':' :: cs := skip cs | none
  let (v, rest) ← value cs
  some ((String.ofList name, v), rest)

/-- A value with no more than so many brackets around any part of it. -/
def readValue (floats : Floats) : Nat → List Char → Option (Value × List Char)
  | 0, cs => readScalar floats (skip cs)
  | depth + 1, cs =>
    match skip cs with
    | '[' :: cs => (sequence (readValue floats depth) ']' cs).map fun (vs, rest) => (.array vs, rest)
    | '{' :: cs =>
      (sequence (readMember (readValue floats depth)) '}' cs).map fun (r, rest) => (.object r, rest)
    | cs => readScalar floats cs

/-- How deep the brackets of a document may stand in one another. -/
def maxDepth : Nat := 127

/-- A whole document. -/
def read (floats : Floats) (cs : List Char) : Option Value := do
  let (v, rest) ← readValue floats maxDepth cs
  if skip rest = [] then some v else none

/-! ### What is written is read back -/

theorem skip_cons {c : Char} (h : isSpace c = false) (cs : List Char) : skip (c :: cs) = c :: cs :=
  List.dropWhile_cons_of_neg (by rw [h]; exact Bool.false_ne_true)

/-- The text of a control character that has no letter of its own. -/
theorem codeUnit_digits {n : Nat} (h : n < 0x20) :
    (['0', '0', Nat.digitChar (n / 16), Nat.digitChar (n % 16)].mapM hexValue).bind
      (fun ds => codeUnit none (ds.foldl (fun n d => 16 * n + d) 0)) = some (.inl (Char.ofNat n)) := by
  have hall : ∀ n < 0x20, (['0', '0', Nat.digitChar (n / 16), Nat.digitChar (n % 16)].mapM
      hexValue).bind (fun ds => codeUnit none (ds.foldl (fun n d => 16 * n + d) 0)) =
        some (.inl (Char.ofNat n)) := by decide +kernel
  exact hall n h

theorem readChars_letter {e c : Char} (he : e ≠ 'u') (h : unescape e = some c) (rest : List Char) :
    readChars none ('\\' :: e :: rest) =
      (readChars none rest).map fun (s, rest) => (c :: s, rest) := by
  rw [readChars.eq_def]
  simp only [if_true, he, if_false, h]

theorem readChars_escape (c : Char) (rest : List Char) :
    readChars none (escape c ++ rest) = (readChars none rest).map fun (s, rest) => (c :: s, rest) := by
  unfold escape
  split_ifs with hquote hbackslash hn hr ht hb hf hcontrol
  · subst hquote
    exact readChars_letter (by decide) rfl rest
  · subst hbackslash
    exact readChars_letter (by decide) rfl rest
  · subst hn
    exact readChars_letter (by decide) rfl rest
  · subst hr
    exact readChars_letter (by decide) rfl rest
  · subst ht
    exact readChars_letter (by decide) rfl rest
  · obtain rfl : c = Char.ofNat 0x8 := Char.toNat_inj.mp hb
    exact readChars_letter (by decide) rfl rest
  · obtain rfl : c = Char.ofNat 0xc := Char.toNat_inj.mp hf
    exact readChars_letter (by decide) rfl rest
  · simp only [List.cons_append, List.nil_append]
    rw [readChars.eq_def]
    simp only [if_true, codeUnit_digits hcontrol, Char.ofNat_toNat]
  · rw [List.singleton_append, readChars.eq_def]
    simp only [hbackslash, hquote, hcontrol, if_false, ne_eq, not_true_eq_false]

theorem readChars_flatMap (s rest : List Char) :
    readChars none (s.flatMap escape ++ '"' :: rest) = some (s, rest) := by
  induction s with
  | nil =>
    rw [List.flatMap_nil, List.nil_append, readChars.eq_def]
    simp
  | cons c s ih =>
    rw [List.flatMap_cons, List.append_assoc, readChars_escape, ih]
    rfl

theorem head?_toDigits {n : Nat} (h : 0 < n) : (Nat.toDigits 10 n).head? ≠ some '0' := by
  induction n using Nat.strongRecOn with
  | ind n ih =>
    by_cases hn : n < 10
    · have hall : ∀ n < 10, 0 < n → (Nat.toDigits 10 n).head? ≠ some '0' := by decide
      exact hall n hn h
    · rw [Nat.toDigits_of_base_le (by decide) (by omega), List.head?_append_of_ne_nil _
        Nat.toDigits_ne_nil]
      exact ih (n / 10) (by omega) (by omega)

theorem natOf_toDigits (n : Nat) : natOf (Nat.toDigits 10 n) = some n := by
  have hdigits : (Nat.toDigits 10 n).all Char.isDigit = true :=
    List.all_eq_true.mpr fun c hc => Nat.isDigit_of_mem_toDigits (by decide) (by decide) hc
  have hzero : (Nat.toDigits 10 n).head? ≠ some '0' ∨ (Nat.toDigits 10 n).length = 1 := by
    rcases Nat.eq_zero_or_pos n with rfl | hn
    · exact .inr rfl
    · exact .inl (head?_toDigits hn)
  rw [natOf, if_pos ⟨Nat.toDigits_ne_nil, hdigits, hzero⟩, Nat.ofDigitChars_ten_toDigits]

theorem isDigit_toDigits {n : Nat} {c : Char} (h : c ∈ Nat.toDigits 10 n) : c.isDigit = true :=
  Nat.isDigit_of_mem_toDigits (by decide) (by decide) h

theorem intOf_writeInt (n : Int) : intOf (writeInt n) = some n := by
  unfold writeInt
  split
  · next hneg =>
    rw [intOf, natOf_toDigits, Option.map_some]
    congr 1
    omega
  · next hpos =>
    obtain ⟨c, cs, hcs⟩ := List.exists_cons_of_ne_nil (Nat.toDigits_ne_nil (n := n.natAbs) (b := 10))
    have hc : c ≠ '-' := by
      rintro rfl
      have hdigit := isDigit_toDigits (n := n.natAbs) (hcs ▸ List.mem_cons_self)
      exact absurd hdigit (by decide)
    have hnat := natOf_toDigits n.natAbs
    rw [hcs] at hnat ⊢
    rw [intOf, hnat, Option.map_some]
    · congr 1
      omega
    · intro cs' heq
      exact hc (List.cons.inj heq).1

/-- A character that is neither a digit nor the sign makes a text no integer. -/
theorem intOf_eq_none {cs : List Char} (h : ∃ c ∈ cs, c ≠ '-' ∧ c.isDigit = false) :
    intOf cs = none := by
  obtain ⟨c, hc, hsign, hdigit⟩ := h
  have hnat : ∀ ds, c ∈ ds → natOf ds = none := by
    intro ds hds
    refine if_neg fun hall => ?_
    have := List.all_eq_true.mp hall.2.1 c hds
    rw [hdigit] at this
    cases this
  unfold intOf
  split
  · next ds =>
    rw [hnat ds ((List.mem_cons.mp hc).resolve_left hsign)]
    rfl
  · rw [hnat cs hc]
    rfl

/-- What may follow a number: no character of one. -/
def Ends (rest : List Char) : Prop := ∀ c ∈ rest.head?, isNumberChar c = false

theorem ends_cons {c : Char} (h : isNumberChar c = false) (cs : List Char) : Ends (c :: cs) := by
  intro d hd
  cases hd
  exact h

theorem readNumber_append (floats : Floats) {text rest : List Char} {v : Value}
    (htext : ∀ c ∈ text, isNumberChar c = true) (hrest : Ends rest)
    (hv : (match intOf text with
      | some n => some (.int n)
      | none => (floats.value text).map .number) = some v) :
    readNumber floats (text ++ rest) = some (v, rest) := by
  have htake : (text ++ rest).takeWhile isNumberChar = text := by
    rw [List.takeWhile_append_of_pos htext]
    cases rest with
    | nil => exact List.append_nil _
    | cons c cs => rw [List.takeWhile_cons_of_neg (by rw [hrest c rfl]; decide), List.append_nil]
  have hdrop : (text ++ rest).dropWhile isNumberChar = rest := by
    rw [List.dropWhile_append_of_pos htext]
    cases rest with
    | nil => rfl
    | cons c cs => exact List.dropWhile_cons_of_neg (by rw [hrest c rfl]; decide)
  rw [readNumber]
  simp only [htake, hdrop, hv, Option.map_some]

/-- The brackets of a value stand no deeper in one another than this. -/
inductive Fits : Nat → Value → Prop where
  | null {n : Nat} : Fits n .null
  | bool {n : Nat} (b : Bool) : Fits n (.bool b)
  | int {n : Nat} (i : Int) : Fits n (.int i)
  | number {n : Nat} (q : ℚ) : Fits n (.number q)
  | string {n : Nat} (s : String) : Fits n (.string s)
  | array {n : Nat} {vs : List Value} (h : ∀ v ∈ vs, Fits n v) : Fits (n + 1) (.array vs)
  | object {n : Nat} {r : List (String × Value)} (h : ∀ e ∈ r, Fits n e.2) :
    Fits (n + 1) (.object r)

attribute [simp] Fits.null Fits.bool Fits.int Fits.number Fits.string

@[simp] theorem fits_ofNat {n : Nat} (k : Nat) : Fits n (.ofNat k) := .int k

@[simp] theorem fits_ofFloat {n : Nat} (x : F64) : Fits n (.ofFloat x) := by
  cases x with
  | finite q => exact .number q
  | _ => exact .null

theorem fits_ofOption {α : Type} {encode : α → Value} {n : Nat} (h : ∀ a, Fits n (encode a))
    (o : Option α) : Fits n (.ofOption encode o) := by
  cases o with
  | none => exact .null
  | some a => exact h a

theorem fits_ofList {α : Type} {encode : α → Value} {n : Nat} (h : ∀ a, Fits n (encode a))
    (as : List α) : Fits (n + 1) (.ofList encode as) := by
  refine .array fun v hv => ?_
  obtain ⟨a, _, rfl⟩ := List.mem_map.mp hv
  exact h a

theorem writes_eq (floats : Floats) (vs : List Value) : writes floats vs = vs.map (write floats) := by
  induction vs with
  | nil => rfl
  | cons v vs ih => rw [writes, ih, List.map_cons]

/-- The text of a member of an object. -/
def writeMember (floats : Floats) (e : String × Value) : List Char :=
  writeString e.1 ++ ':' :: write floats e.2

theorem members_eq (floats : Floats) (r : List (String × Value)) :
    members floats r = r.map (writeMember floats) := by
  induction r with
  | nil => rfl
  | cons e r ih => rw [members, ih, List.map_cons, writeMember]

/-- How a text may begin: with no space, comma or closing bracket. -/
def Begins (cs : List Char) : Prop :=
  ∃ c rest, cs = c :: rest ∧ isSpace c = false ∧ c ≠ ',' ∧ c ≠ ']' ∧ c ≠ '\x7d'

theorem begins_number {cs : List Char} (hne : cs ≠ []) (h : ∀ c ∈ cs, isNumberChar c = true) :
    Begins cs := by
  obtain ⟨c, rest, rfl⟩ := List.exists_cons_of_ne_nil hne
  have hc := h c List.mem_cons_self
  have hno : ∀ d, isNumberChar d = false → c ≠ d := by
    rintro d hd rfl
    rw [hc] at hd
    cases hd
  refine ⟨c, rest, rfl, ?_, hno ',' (by decide), hno ']' (by decide), hno '\x7d' (by decide)⟩
  refine Bool.eq_false_iff.mpr fun hspace => ?_
  have hmem : c ∈ [' ', '\n', '\t', '\r'] := List.contains_iff_mem.mp hspace
  have hall : ∀ d ∈ [' ', '\n', '\t', '\r'], isNumberChar d = false := Text.of_all (by decide)
  exact hno c (hall c hmem) rfl

theorem isNumberChar_writeInt {n : Int} {c : Char} (h : c ∈ writeInt n) : isNumberChar c = true := by
  have hdigit : c ∈ Nat.toDigits 10 n.natAbs → isNumberChar c = true := fun h => by
    rw [isNumberChar, isDigit_toDigits h, Bool.true_or]
  unfold writeInt at h
  split at h
  · rcases List.mem_cons.mp h with rfl | h
    · decide
    · exact hdigit h
  · exact hdigit h

theorem writeInt_ne_nil (n : Int) : writeInt n ≠ [] := by
  unfold writeInt
  split
  · exact List.cons_ne_nil _ _
  · exact Nat.toDigits_ne_nil

theorem floats_ne_nil (floats : Floats) (q : ℚ) : floats.text q ≠ [] := by
  obtain ⟨c, hc, _⟩ := floats.point q
  exact List.ne_nil_of_mem hc

theorem write_begins (floats : Floats) (v : Value) : Begins (write floats v) := by
  cases v with
  | null => exact ⟨_, _, rfl, by decide⟩
  | bool b => cases b <;> exact ⟨_, _, rfl, by decide⟩
  | int n => exact begins_number (writeInt_ne_nil n) fun _ => isNumberChar_writeInt
  | number q => exact begins_number (floats_ne_nil floats q) (floats.number q)
  | string s => exact ⟨_, _, rfl, by decide⟩
  | array vs => exact ⟨_, _, rfl, by decide⟩
  | object r => exact ⟨_, _, rfl, by decide⟩

theorem writeMember_begins (floats : Floats) (e : String × Value) : Begins (writeMember floats e) :=
  ⟨_, _, rfl, by decide⟩

section Sequence

variable {α : Type} {item : List Char → Option (α × List Char)} {close : Char}
  {encode : α → List Char}

/-- A closing bracket. -/
def Closes (close : Char) : Prop := close = ']' ∨ close = '\x7d'

theorem Closes.plain (h : Closes close) :
    isSpace close = false ∧ isNumberChar close = false ∧ ',' ≠ close := by
  rcases h with rfl | rfl <;> decide

theorem items_intercalate (hclose : Closes close) {as : List α}
    (hitem : ∀ a ∈ as, ∀ rest, Ends rest → item (encode a ++ rest) = some (a, rest))
    (hne : as ≠ []) (fuel : Nat) (hfuel : as.length ≤ fuel) (rest : List Char) :
    items item close fuel ([','].intercalate (as.map encode) ++ close :: rest) =
      some (as, rest) := by
  obtain ⟨hspace, hnumber, hcomma⟩ := hclose.plain
  induction as generalizing fuel with
  | nil => exact absurd rfl hne
  | cons a as ih =>
    obtain ⟨fuel, rfl⟩ : ∃ k, fuel = k + 1 := ⟨fuel - 1, by simp at hfuel; omega⟩
    have ha := hitem a List.mem_cons_self
    rw [List.map_cons]
    cases as with
    | nil =>
      rw [List.map_nil, List.intercalate_singleton, items, ha _ (ends_cons hnumber rest)]
      simp [skip_cons hspace]
    | cons b as =>
      rw [List.map_cons, List.intercalate_cons_cons, ← List.map_cons, List.append_assoc,
        List.append_assoc, List.singleton_append, items, ha _ (ends_cons (by decide) _)]
      have hrest := ih (fun b hb => hitem b (List.mem_cons_of_mem _ hb)) (List.cons_ne_nil _ _)
        fuel (by simpa using hfuel)
      rw [List.map_cons] at hrest
      simp [skip_cons (by decide : isSpace ',' = false), hcomma, hrest]

theorem length_le_intercalate (as : List α) (encode : α → List Char) :
    as.length ≤ ([','].intercalate (as.map encode)).length + 1 := by
  induction as with
  | nil => exact Nat.zero_le _
  | cons a as ih =>
    cases as with
    | nil => exact Nat.le_add_left 1 _
    | cons b as =>
      simp only [List.map_cons, List.intercalate_cons_cons, List.length_append, List.length_cons,
        List.length_nil] at ih ⊢
      omega

/-- A list between brackets is read back. -/
theorem sequence_intercalate (hclose : Closes close) {as : List α}
    (hitem : ∀ a ∈ as, ∀ rest, Ends rest → item (encode a ++ rest) = some (a, rest))
    (hbegins : ∀ a, Begins (encode a)) (rest : List Char) :
    sequence item close ([','].intercalate (as.map encode) ++ close :: rest) = some (as, rest) := by
  cases as with
  | nil =>
    rw [List.map_nil, List.intercalate_nil, List.nil_append, sequence, skip_cons hclose.plain.1]
    exact if_pos rfl
  | cons a as =>
    have hfuel : (a :: as).length ≤
        ([','].intercalate ((a :: as).map encode) ++ close :: rest).length := by
      have := length_le_intercalate (a :: as) encode
      rw [List.length_append, List.length_cons (a := close)]
      omega
    have hitems := items_intercalate hclose hitem (List.cons_ne_nil _ _) _ hfuel rest
    obtain ⟨c, cs, hcs, hspace, _, hbracket, hbrace⟩ := hbegins a
    obtain ⟨text, htext⟩ : ∃ text, [','].intercalate ((a :: as).map encode) = c :: text := by
      cases as with
      | nil => exact ⟨cs, by rw [List.map_cons, List.map_nil, List.intercalate_singleton, hcs]⟩
      | cons b as =>
        rw [List.map_cons, List.map_cons, List.intercalate_cons_cons, hcs]
        exact ⟨_, rfl⟩
    have hne : c ≠ close := by
      rcases hclose with rfl | rfl
      · exact hbracket
      · exact hbrace
    rw [htext, List.cons_append] at hitems ⊢
    rw [sequence, skip_cons hspace]
    simp only [hne, if_false, hitems]

end Sequence

theorem writeString_append (s : String) (rest : List Char) :
    writeString s ++ rest = '"' :: (s.toList.flatMap escape ++ '"' :: rest) := by
  simp [writeString]

theorem readScalar_string (floats : Floats) (s : String) (rest : List Char) :
    readScalar floats (writeString s ++ rest) = some (.string s, rest) := by
  rw [writeString_append, readScalar, readChars_flatMap, Option.map_some]
  exact congrArg (fun s => some (Value.string s, rest)) String.ofList_toList

/-- A text that begins with a character of a number is read as a number. -/
theorem readScalar_number (floats : Floats) {text rest : List Char} (hne : text ≠ [])
    (h : ∀ c ∈ text, isNumberChar c = true) :
    readScalar floats (text ++ rest) = readNumber floats (text ++ rest) := by
  obtain ⟨c, text, rfl⟩ := List.exists_cons_of_ne_nil hne
  have hc := h c List.mem_cons_self
  rw [List.cons_append, readScalar]
  all_goals
    intro _ heq
    obtain ⟨rfl, _⟩ := List.cons.inj heq
    exact absurd hc (by decide)

/-- Without a bracket there is a scalar, at any depth. -/
theorem readValue_scalar (floats : Floats) (depth : Nat) {c : Char} {cs : List Char}
    (hspace : isSpace c = false) (hbracket : c ≠ '[') (hbrace : c ≠ '\x7b') :
    readValue floats depth (c :: cs) = readScalar floats (c :: cs) := by
  cases depth with
  | zero => rw [readValue, skip_cons hspace]
  | succ depth =>
    rw [readValue, skip_cons hspace]
    split
    · next heq => exact absurd (List.cons.inj heq).1 hbracket
    · next heq => exact absurd (List.cons.inj heq).1 hbrace
    · rfl

/-- A number is read back at any depth. -/
theorem readValue_number (floats : Floats) (depth : Nat) {text rest : List Char} {v : Value}
    (hne : text ≠ []) (h : ∀ c ∈ text, isNumberChar c = true) (hrest : Ends rest)
    (hv : (match intOf text with
      | some n => some (.int n)
      | none => (floats.value text).map .number) = some v) :
    readValue floats depth (text ++ rest) = some (v, rest) := by
  rw [← readNumber_append floats h hrest hv, ← readScalar_number floats hne h]
  obtain ⟨c, cs, heq, hspace, _⟩ := begins_number hne h
  have hc := h c (heq ▸ List.mem_cons_self)
  rw [heq, List.cons_append]
  refine readValue_scalar floats depth hspace ?_ ?_
  all_goals
    rintro rfl
    exact absurd hc (by decide)

theorem readMember_write (floats : Floats) {depth : Nat} {e : String × Value}
    (h : ∀ rest, Ends rest → readValue floats depth (write floats e.2 ++ rest) = some (e.2, rest))
    {rest : List Char} (hrest : Ends rest) :
    readMember (readValue floats depth) (writeMember floats e ++ rest) = some (e, rest) := by
  rw [writeMember, List.append_assoc, writeString_append, readMember, skip_cons (by decide)]
  simp [readChars_flatMap, skip_cons (by decide : isSpace ':' = false), h rest hrest]

/-- Reading the text of a value gives the value back, and leaves what follows it. -/
theorem readValue_write (floats : Floats) {depth : Nat} {v : Value} (h : Fits depth v)
    {rest : List Char} (hrest : Ends rest) :
    readValue floats depth (write floats v ++ rest) = some (v, rest) := by
  induction h generalizing rest with
  | null => exact readValue_scalar floats _ (by decide) (by decide) (by decide)
  | bool b => cases b <;> exact readValue_scalar floats _ (by decide) (by decide) (by decide)
  | int i =>
    refine readValue_number floats _ (writeInt_ne_nil i) (fun _ => isNumberChar_writeInt) hrest ?_
    rw [write, intOf_writeInt]
  | number q =>
    refine readValue_number floats _ (floats_ne_nil floats q) (floats.number q) hrest ?_
    rw [write, intOf_eq_none (floats.point q), floats.value_text]
    rfl
  | string s =>
    rw [← readScalar_string floats s rest, write, writeString_append]
    exact readValue_scalar floats _ (by decide) (by decide) (by decide)
  | @array n vs h ih =>
    rw [write, writes_eq, List.cons_append, List.cons_append, List.append_assoc, readValue, skip_cons (by decide)]
    simp only [List.singleton_append]
    rw [sequence_intercalate (.inl rfl) (fun v hv rest hrest => ih v hv hrest)
      (write_begins floats)]
    rfl
  | @object n r h ih =>
    rw [write, members_eq, List.cons_append, List.cons_append, List.append_assoc, readValue,
      skip_cons (by decide)]
    simp only [List.singleton_append]
    rw [sequence_intercalate (.inr rfl) (fun e he rest hrest => readMember_write floats
      (fun rest hrest => ih e he hrest) hrest) (writeMember_begins floats)]
    rfl

/-- A document is read back from its text. -/
theorem read_write (floats : Floats) {v : Value} (h : Fits maxDepth v) :
    read floats (write floats v) = some v := by
  have hvalue := readValue_write floats h ((fun _ hc => (by cases hc)) : Ends [])
  rw [List.append_nil] at hvalue
  rw [read, hvalue]
  rfl

/-! ### One line -/

/-- A character that is no control character. -/
def Printable (c : Char) : Prop := 0x20 ≤ c.toNat

instance : DecidablePred Printable := fun c => inferInstanceAs (Decidable (0x20 ≤ c.toNat))

theorem printable_number {c : Char} (h : isNumberChar c = true) : Printable c := by
  rcases (Bool.or_eq_true _ _).mp h with h | h
  · have hdigit := Char.isDigit_iff_toNat.mp h
    have hzero : '0'.toNat = 48 := rfl
    unfold Printable
    omega
  · have hall : ∀ c ∈ ['-', '+', '.', 'e', 'E'], Printable c := Text.of_all (by decide)
    exact hall c (List.contains_iff_mem.mp h)

theorem printable_digitChar {n : Nat} (h : n < 16) : Printable (Nat.digitChar n) :=
  (by decide : ∀ n < 16, Printable (Nat.digitChar n)) n h

theorem printable_escape {c d : Char} (h : d ∈ escape c) : Printable d := by
  have hletter : ∀ e, Printable e → d ∈ ['\\', e] → Printable d := by
    intro e he hd
    rcases List.mem_cons.mp hd with rfl | hd
    · decide
    · rwa [List.mem_singleton.mp hd]
  unfold escape at h
  split_ifs at h with _ _ _ _ _ _ _ hcontrol
  · exact hletter '"' (by decide) h
  · exact hletter '\\' (by decide) h
  · exact hletter 'n' (by decide) h
  · exact hletter 'r' (by decide) h
  · exact hletter 't' (by decide) h
  · exact hletter 'b' (by decide) h
  · exact hletter 'f' (by decide) h
  · have h : d ∈ ['\\', 'u', '0', '0'] ++
        [Nat.digitChar (c.toNat / 16), Nat.digitChar (c.toNat % 16)] := h
    rcases List.mem_append.mp h with h | h
    · exact (Text.of_all (by decide) : ∀ d ∈ ['\\', 'u', '0', '0'], Printable d) d h
    · rcases List.mem_cons.mp h with rfl | h
      · exact printable_digitChar (by omega)
      · rw [List.mem_singleton.mp h]
        exact printable_digitChar (by omega)
  · rw [List.mem_singleton.mp h]
    exact Nat.not_lt.mp hcontrol

theorem printable_writeString {s : String} {c : Char} (h : c ∈ writeString s) : Printable c := by
  rw [writeString, List.cons_append, List.mem_cons, List.mem_append, List.mem_singleton] at h
  rcases h with rfl | h | rfl
  · decide
  · obtain ⟨d, _, hc⟩ := List.mem_flatMap.mp h
    exact printable_escape hc
  · decide

/-- The text of a value is one line. -/
theorem printable_write (floats : Floats) {depth : Nat} {v : Value} (h : Fits depth v) {c : Char}
    (hc : c ∈ write floats v) : Printable c := by
  induction h generalizing c with
  | null => exact (Text.of_all (by decide) : ∀ c ∈ ['n', 'u', 'l', 'l'], Printable c) c hc
  | bool b =>
    cases b
    · exact (Text.of_all (by decide) : ∀ c ∈ ['f', 'a', 'l', 's', 'e'], Printable c) c hc
    · exact (Text.of_all (by decide) : ∀ c ∈ ['t', 'r', 'u', 'e'], Printable c) c hc
  | int i => exact printable_number (isNumberChar_writeInt hc)
  | number q => exact printable_number (floats.number q c hc)
  | string s => exact printable_writeString hc
  | array h ih =>
    rw [write, writes_eq, List.cons_append, List.mem_cons, List.mem_append,
      List.mem_singleton] at hc
    rcases hc with rfl | hc | rfl
    · decide
    · rcases Text.mem_intercalate hc with rfl | ⟨text, htext, hc⟩
      · decide
      · obtain ⟨v, hv, rfl⟩ := List.mem_map.mp htext
        exact ih v hv hc
    · decide
  | object h ih =>
    rw [write, members_eq, List.cons_append, List.mem_cons, List.mem_append,
      List.mem_singleton] at hc
    rcases hc with rfl | hc | rfl
    · decide
    · rcases Text.mem_intercalate hc with rfl | ⟨text, htext, hc⟩
      · decide
      · obtain ⟨e, he, rfl⟩ := List.mem_map.mp htext
        rw [writeMember, List.mem_append, List.mem_cons] at hc
        rcases hc with hc | rfl | hc
        · exact printable_writeString hc
        · decide
        · exact ih e he hc
    · decide

/-! ### Texts -/

def toText (floats : Floats) (v : Value) : String := String.ofList (write floats v)

def ofText (floats : Floats) (s : String) : Option Value := read floats s.toList

theorem ofText_toText (floats : Floats) {v : Value} (h : Fits maxDepth v) :
    ofText floats (toText floats v) = some v := by
  rw [ofText, toText, String.toList_ofList, read_write floats h]

theorem printable_toText (floats : Floats) {v : Value} (h : Fits maxDepth v) {c : Char}
    (hc : c ∈ (toText floats v).toList) : Printable c := by
  rw [toText, String.toList_ofList] at hc
  exact printable_write floats h hc

end Json
