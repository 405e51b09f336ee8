import Mathlib.Algebra.Group.Nat.Defs
import Mathlib.Data.List.Basic
import Mathlib.Data.List.DropRight

/-! Text as `str` sees it: trimming, ASCII case, splitting at a character or into lines, and reading
numbers. -/

namespace Text

/-- What a check finds of every character of a list holds of each. -/
theorem of_all {p : Char → Prop} [DecidablePred p] {cs : List Char}
    (h : (cs.all fun c => decide (p c)) = true) : ∀ c ∈ cs, p c :=
  fun c hc => of_decide_eq_true (List.all_eq_true.mp h c hc)

/-- The characters with the Unicode `White_Space` property. -/
def isWhitespace (c : Char) : Bool :=
  (0x9 ≤ c.toNat && c.toNat ≤ 0xd) || (0x2000 ≤ c.toNat && c.toNat ≤ 0x200a) ||
    [0x20, 0x85, 0xa0, 0x1680, 0x2028, 0x2029, 0x202f, 0x205f, 0x3000].contains c.toNat

/-- `trim`, on characters. -/
def trimChars (cs : List Char) : List Char :=
  ((cs.dropWhile isWhitespace).reverse.dropWhile isWhitespace).reverse

/-- `trim`. -/
def trim (s : String) : String := String.ofList (trimChars s.toList)

/-- `trim_end`, on characters. -/
def trimEndChars (cs : List Char) : List Char := (cs.reverse.dropWhile isWhitespace).reverse

/-- `to_ascii_lowercase`. -/
def toAsciiLowercase (s : String) : String := String.ofList (s.toList.map Char.toLower)

/-- `eq_ignore_ascii_case`. -/
def eqIgnoreAsciiCase (a b : String) : Bool := toAsciiLowercase a == toAsciiLowercase b

/-- `contains`, for a character. -/
def hasChar (s : String) (c : Char) : Bool := s.toList.contains c

/-- Whether the characters of `part` stand somewhere in a row in `s`, as `contains` decides. -/
def hasText (s part : String) : Bool := s.toList.tails.any part.toList.isPrefixOf

/-- `split_once` at a character, on characters. -/
def splitOnce (c : Char) : List Char → Option (List Char × List Char)
  | [] => none
  | d :: rest =>
    if d = c then some ([], rest) else (splitOnce c rest).map fun (a, b) => (d :: a, b)

/-- `split` at a character, on characters: always at least one piece. -/
def split (c : Char) : List Char → List (List Char)
  | [] => [[]]
  | d :: rest =>
    match split c rest with
    | [] => [[d]]
    | piece :: pieces => if d = c then [] :: piece :: pieces else (d :: piece) :: pieces

/-- `split_once` at a doubled character, on characters. -/
def splitTwice (c : Char) : List Char → Option (List Char × List Char)
  | [] | [_] => none
  | d :: e :: rest =>
    if d = c ∧ e = c then some ([], rest)
    else (splitTwice c (e :: rest)).map fun (a, b) => (d :: a, b)

/-- `lines`, on characters: a line feed ends a line, with a carriage return before it. -/
def linesOf (cs : List Char) : List (List Char) :=
  let pieces := split '\n' cs
  pieces.dropLast.map (fun line => if line.getLast? = some '\r' then line.dropLast else line) ++
    pieces.getLast?.toList.filter (· ≠ [])

/-- Why a text is no number. -/
inductive IntError where
  | empty
  | invalidDigit
  | posOverflow
  deriving DecidableEq, Repr

def IntError.message : IntError → String
  | empty => "cannot parse integer from empty string"
  | invalidDigit => "invalid digit found in string"
  | posOverflow => "number too large to fit in target type"

/-- One more decimal digit of a number of so many bits. -/
def pushDigit (bits n : Nat) (c : Char) : Except IntError Nat :=
  if c.isDigit then
    if 10 * n + (c.toNat - '0'.toNat) < 2 ^ bits then .ok (10 * n + (c.toNat - '0'.toNat))
    else .error .posOverflow
  else .error .invalidDigit

/-- `from_str` of an unsigned integer of so many bits: digits, with or without a plus sign. -/
def parseUnsigned (bits : Nat) (cs : List Char) : Except IntError Nat :=
  if cs = [] then .error .empty
  else if cs = ['+'] ∨ cs = ['-'] then .error .invalidDigit
  else (if cs.head? = some '+' then cs.tail else cs).foldlM (pushDigit bits) 0

theorem foldlM_pushDigit_lt {bits n m : Nat} {cs : List Char} (hn : n < 2 ^ bits)
    (h : cs.foldlM (pushDigit bits) n = .ok m) : m < 2 ^ bits := by
  induction cs generalizing n with
  | nil => cases h; exact hn
  | cons c cs ih =>
    rw [List.foldlM_cons] at h
    cases hc : pushDigit bits n c with
    | error e => rw [hc] at h; cases h
    | ok k =>
      rw [hc] at h
      refine ih ?_ h
      unfold pushDigit at hc
      split at hc
      · split at hc
        · next hlt => cases hc; exact hlt
        · cases hc
      · cases hc

theorem parseUnsigned_lt {bits n : Nat} {cs : List Char} (h : parseUnsigned bits cs = .ok n) :
    n < 2 ^ bits := by
  unfold parseUnsigned at h
  split at h
  · cases h
  · split at h
    · cases h
    · exact foldlM_pushDigit_lt (Nat.two_pow_pos bits) h

theorem mem_trimChars {c : Char} {cs : List Char} (h : c ∈ trimChars cs) : c ∈ cs := by
  simp only [trimChars, List.mem_reverse] at h
  have h1 := (List.dropWhile_suffix _).subset h
  rw [List.mem_reverse] at h1
  exact (List.dropWhile_suffix _).subset h1

theorem mem_trimChars_of_not_whitespace {c : Char} {cs : List Char} (h : c ∈ cs)
    (hc : isWhitespace c = false) : c ∈ trimChars cs := by
  have keep : ∀ ds : List Char, c ∈ ds → c ∈ ds.dropWhile isWhitespace := by
    intro ds hds
    induction ds with
    | nil => cases hds
    | cons d ds ih =>
      rw [List.dropWhile_cons]
      split
      · next hd =>
        rcases List.mem_cons.mp hds with rfl | hds
        · rw [hc] at hd; cases hd
        · exact ih hds
      · exact hds
  simp only [trimChars, List.mem_reverse]
  exact keep _ (List.mem_reverse.mpr (keep _ h))

theorem trimChars_of_not_whitespace {cs : List Char} (h : ∀ c ∈ cs, isWhitespace c = false) :
    trimChars cs = cs := by
  have keep : ∀ ds : List Char, (∀ c ∈ ds, isWhitespace c = false) →
      ds.dropWhile isWhitespace = ds := by
    intro ds hds
    cases ds with
    | nil => rfl
    | cons d ds => exact List.dropWhile_cons_of_neg (by simp [hds d List.mem_cons_self])
  rw [trimChars, keep cs h, keep _ fun c hc => h c (List.mem_reverse.mp hc), List.reverse_reverse]

theorem trimChars_trimChars (cs : List Char) : trimChars (trimChars cs) = trimChars cs := by
  have hfront (ds : List Char) (h : ∀ c, ds.head? = some c → isWhitespace c = false) :
      ds.dropWhile isWhitespace = ds := by
    cases ds with
    | nil => rfl
    | cons d ds => exact List.dropWhile_cons_of_neg (by simp [h d rfl])
  have hhead (ds : List Char) (c : Char) (h : (ds.dropWhile isWhitespace).head? = some c) :
      isWhitespace c = false := by
    have hnot := List.head?_dropWhile_not isWhitespace ds
    rw [h] at hnot
    simpa using hnot
  rw [trimChars.eq_1 (trimChars cs)]
  have hstart : (trimChars cs).dropWhile isWhitespace = trimChars cs := by
    refine hfront _ fun c hc => hhead cs c ?_
    obtain ⟨rest, hrest⟩ := List.head?_eq_some_iff.mp hc
    obtain ⟨spaces, hspaces⟩ := List.dropWhile_suffix isWhitespace (l := (cs.dropWhile isWhitespace).reverse)
    have hwhole := congrArg List.reverse hspaces
    rw [List.reverse_append, List.reverse_reverse] at hwhole
    change trimChars cs ++ _ = _ at hwhole
    rw [← hwhole, hrest]
    rfl
  rw [hstart, trimChars, List.reverse_reverse, hfront _ (hhead _)]

/-- Lower case moves a capital up by 32, and leaves everything else where it is. -/
theorem toLower_cases (c : Char) : 65 ≤ c.toNat ∧ c.toNat ≤ 90 ∧ c.toLower.toNat = c.toNat + 32 ∨
    ¬(65 ≤ c.toNat ∧ c.toNat ≤ 90) ∧ c.toLower = c := by
  have hlow : 'A'.val.toNat = 65 := rfl
  have hhigh : 'Z'.val.toNat = 90 := rfl
  have hdiff : ('a'.val - 'A'.val).toNat = 32 := by decide
  have hval : c.toNat = c.val.toNat := rfl
  unfold Char.toLower
  split
  · next h =>
    simp only [ge_iff_le, UInt32.le_iff_toNat_le] at h
    refine .inl ⟨by omega, by omega, ?_⟩
    change (c.val + ('a'.val - 'A'.val)).toNat = _
    rw [UInt32.toNat_add]
    omega
  · next h =>
    simp only [ge_iff_le, UInt32.le_iff_toNat_le] at h
    exact .inr ⟨by omega, rfl⟩

theorem isWhitespace_toLower (c : Char) : isWhitespace c.toLower = isWhitespace c := by
  rcases toLower_cases c with ⟨hlow, hhigh, hmoved⟩ | ⟨_, hkept⟩
  · have hupper : isWhitespace c = false := by
      simp [isWhitespace]
      omega
    rw [hupper]
    simp [isWhitespace]
    omega
  · rw [hkept]

theorem toLower_toLower (c : Char) : c.toLower.toLower = c.toLower := by
  rcases toLower_cases c with ⟨hlow, hhigh, hmoved⟩ | ⟨_, hkept⟩
  · rcases toLower_cases c.toLower with ⟨_, hupper, _⟩ | ⟨_, hkept⟩
    · omega
    · exact hkept
  · rw [hkept, hkept]

/-- A character that is no letter is in lower case only where it stood before. -/
theorem toLower_eq_iff {c d : Char} (hd : d.toNat < 65 ∨ 90 < d.toNat ∧ d.toNat < 97) :
    c.toLower = d ↔ c = d := by
  rcases toLower_cases c with ⟨hlow, hhigh, hmoved⟩ | ⟨_, hkept⟩
  · refine iff_of_false (fun h => ?_) fun h => ?_
    · rw [h] at hmoved
      omega
    · rw [h] at hlow hhigh
      omega
  · rw [hkept]

theorem map_toLower_toLower (cs : List Char) :
    (cs.map Char.toLower).map Char.toLower = cs.map Char.toLower := by
  rw [List.map_map]
  exact List.map_congr_left fun c _ => toLower_toLower c

theorem toAsciiLowercase_idem (s : String) :
    toAsciiLowercase (toAsciiLowercase s) = toAsciiLowercase s := by
  rw [toAsciiLowercase, toAsciiLowercase, String.toList_ofList, map_toLower_toLower]

theorem trimChars_map_toLower (cs : List Char) :
    trimChars (cs.map Char.toLower) = (trimChars cs).map Char.toLower := by
  have hsame : (isWhitespace ∘ Char.toLower) = isWhitespace := funext isWhitespace_toLower
  rw [trimChars, trimChars, List.dropWhile_map, hsame, ← List.map_reverse, List.dropWhile_map, hsame,
    List.map_reverse]

/-- What is trimmed away stands at the ends. -/
theorem trimChars_within (cs : List Char) : trimChars cs <:+: cs := by
  have hback : trimChars cs <+: cs.dropWhile isWhitespace := by
    rw [trimChars, ← List.reverse_suffix, List.reverse_reverse]
    exact List.dropWhile_suffix _
  exact hback.isInfix.trans (List.dropWhile_suffix _).isInfix

theorem trimEndChars_append {c : Char} (h : isWhitespace c = true) (cs : List Char) :
    trimEndChars (cs ++ [c]) = trimEndChars cs := by
  rw [trimEndChars, List.reverse_append, List.reverse_singleton, List.singleton_append,
    List.dropWhile_cons_of_pos h]
  rfl

theorem trimEndChars_of_last {c : Char} (h : isWhitespace c = false) (cs : List Char) :
    trimEndChars (cs ++ [c]) = cs ++ [c] := by
  rw [trimEndChars, List.reverse_append, List.reverse_singleton, List.singleton_append,
    List.dropWhile_cons_of_neg (by rw [h]; exact Bool.false_ne_true), List.reverse_cons,
    List.reverse_reverse]

theorem trimEndChars_idem (cs : List Char) : trimEndChars (trimEndChars cs) = trimEndChars cs :=
  List.rdropWhile_idempotent isWhitespace cs

theorem splitOnce_eq_some {c : Char} {cs a b : List Char} (h : splitOnce c cs = some (a, b)) :
    cs = a ++ c :: b := by
  induction cs generalizing a b with
  | nil => cases h
  | cons d cs ih =>
    rw [splitOnce] at h
    split at h
    · next hd => cases h; rw [hd]; rfl
    · obtain ⟨⟨a', b'⟩, hs, hab⟩ := Option.map_eq_some_iff.mp h
      cases hab
      rw [ih hs]; rfl

theorem splitOnce_append {c : Char} {a : List Char} (h : c ∉ a) (b : List Char) :
    splitOnce c (a ++ c :: b) = some (a, b) := by
  induction a with
  | nil => exact if_pos rfl
  | cons d a ih =>
    rw [List.mem_cons, not_or] at h
    rw [List.cons_append, splitOnce, if_neg (Ne.symm h.1), ih h.2]
    rfl

/-- Without the separator there is one piece, the whole text. -/
theorem split_of_not_mem {c : Char} {cs : List Char} (h : c ∉ cs) : split c cs = [cs] := by
  induction cs with
  | nil => rfl
  | cons d cs ih =>
    rw [List.mem_cons, not_or] at h
    rw [split, ih h.2]
    exact if_neg (Ne.symm h.1)

/-- A character of the text other than the separator is in one of the pieces. -/
theorem mem_split {c d : Char} {cs : List Char} (h : d ∈ cs) (hd : d ≠ c) :
    ∃ piece ∈ split c cs, d ∈ piece := by
  induction cs with
  | nil => cases h
  | cons e cs ih =>
    rw [split]
    split
    · next hnil =>
      rcases List.mem_cons.mp h with rfl | h
      · exact ⟨[d], by simp, by simp⟩
      · obtain ⟨piece, hp, _⟩ := ih h
        rw [hnil] at hp; cases hp
    · next first rest hcons =>
      have hin : d = e ∨ ∃ piece ∈ first :: rest, d ∈ piece := by
        rw [← hcons]
        exact (List.mem_cons.mp h).imp id ih
      split
      · next he =>
        rcases hin with rfl | ⟨piece, hp, hdp⟩
        · exact absurd he hd
        · exact ⟨piece, List.mem_cons_of_mem _ hp, hdp⟩
      · rcases hin with rfl | ⟨piece, hp, hdp⟩
        · exact ⟨_, List.mem_cons_self, List.mem_cons_self⟩
        · rcases List.mem_cons.mp hp with rfl | hp
          · exact ⟨_, List.mem_cons_self, List.mem_cons_of_mem _ hdp⟩
          · exact ⟨piece, List.mem_cons_of_mem _ hp, hdp⟩

theorem mem_intercalate {c d : Char} {pieces : List (List Char)} (h : d ∈ [c].intercalate pieces) :
    d = c ∨ ∃ piece ∈ pieces, d ∈ piece := by
  induction pieces with
  | nil => cases h
  | cons piece pieces ih =>
    cases pieces with
    | nil => exact .inr ⟨piece, List.mem_cons_self, by rwa [List.intercalate_singleton] at h⟩
    | cons next pieces =>
      rw [List.intercalate_cons_cons, List.mem_append, List.mem_append, List.mem_singleton] at h
      rcases h with (h | h) | h
      · exact .inr ⟨piece, List.mem_cons_self, h⟩
      · exact .inl h
      · rcases ih h with h | ⟨p, hp, hd⟩
        · exact .inl h
        · exact .inr ⟨p, List.mem_cons_of_mem _ hp, hd⟩

theorem split_ne_nil (c : Char) (cs : List Char) : split c cs ≠ [] := by
  cases cs with
  | nil => exact List.cons_ne_nil _ _
  | cons d cs =>
    rw [split]
    split
    · exact List.cons_ne_nil _ _
    · split <;> exact List.cons_ne_nil _ _

/-- Up to the first separator there is one piece. -/
theorem split_append {c : Char} {a : List Char} (h : c ∉ a) (b : List Char) :
    split c (a ++ c :: b) = a :: split c b := by
  induction a with
  | nil =>
    obtain ⟨piece, pieces, hb⟩ := List.exists_cons_of_ne_nil (split_ne_nil c b)
    rw [List.nil_append, split, hb]
    exact if_pos rfl
  | cons d a ih =>
    rw [List.mem_cons, not_or] at h
    rw [List.cons_append, split, ih h.2]
    exact if_neg (Ne.symm h.1)

/-- Splitting takes apart what was joined, where no piece has the separator. -/
theorem split_intercalate {c : Char} {pieces : List (List Char)} (hne : pieces ≠ [])
    (h : ∀ piece ∈ pieces, c ∉ piece) : split c ([c].intercalate pieces) = pieces := by
  induction pieces with
  | nil => exact absurd rfl hne
  | cons piece pieces ih =>
    have hpiece := h piece List.mem_cons_self
    cases pieces with
    | nil => rw [List.intercalate_singleton, split_of_not_mem hpiece]
    | cons next pieces =>
      rw [List.intercalate_cons_cons, List.append_assoc, List.singleton_append,
        split_append hpiece, ih (List.cons_ne_nil _ _) fun p hp => h p (List.mem_cons_of_mem _ hp)]

/-- A piece of a longer text is empty, a piece of the rest, or one with the character before it. -/
theorem mem_split_cons {c d : Char} {cs piece : List Char} (h : piece ∈ split c (d :: cs)) :
    piece = [] ∨ piece ∈ split c cs ∨ d ≠ c ∧ ∃ rest ∈ split c cs, piece = d :: rest := by
  obtain ⟨first, pieces, hcs⟩ := List.exists_cons_of_ne_nil (split_ne_nil c cs)
  rw [split, hcs] at h
  rw [hcs]
  dsimp only at h
  split at h
  · exact (List.mem_cons.mp h).imp id .inl
  · next hd =>
    rcases List.mem_cons.mp h with rfl | h
    · exact .inr (.inr ⟨hd, first, List.mem_cons_self, rfl⟩)
    · exact .inr (.inl (List.mem_cons_of_mem _ h))

/-- No piece has the separator. -/
theorem not_mem_of_mem_split {c : Char} {cs piece : List Char} (h : piece ∈ split c cs) :
    c ∉ piece := by
  induction cs generalizing piece with
  | nil =>
    rw [split, List.mem_singleton] at h
    rw [h]
    exact List.not_mem_nil
  | cons d cs ih =>
    rcases mem_split_cons h with rfl | h | ⟨hd, rest, hrest, rfl⟩
    · exact List.not_mem_nil
    · exact ih h
    · rw [List.mem_cons, not_or]
      exact ⟨Ne.symm hd, ih hrest⟩

/-- The pieces are made of the characters of the text. -/
theorem mem_of_mem_split {c d : Char} {cs piece : List Char} (h : piece ∈ split c cs)
    (hd : d ∈ piece) : d ∈ cs := by
  induction cs generalizing piece with
  | nil =>
    rw [split, List.mem_singleton] at h
    exact h ▸ hd
  | cons e cs ih =>
    rcases mem_split_cons h with rfl | h | ⟨_, rest, hrest, rfl⟩
    · cases hd
    · exact List.mem_cons_of_mem _ (ih h hd)
    · rcases List.mem_cons.mp hd with rfl | hd
      · exact List.mem_cons_self
      · exact List.mem_cons_of_mem _ (ih hrest hd)

/-- A line has no line feed. -/
theorem not_mem_of_mem_linesOf {cs line : List Char} (h : line ∈ linesOf cs) : '\n' ∉ line := by
  rcases List.mem_append.mp h with h | h
  · obtain ⟨piece, hpiece, rfl⟩ := List.mem_map.mp h
    have hfree := not_mem_of_mem_split (List.dropLast_subset _ hpiece)
    split
    · exact fun hmem => hfree (List.dropLast_subset _ hmem)
    · exact hfree
  · have hlast := Option.mem_toList.mp (List.mem_filter.mp h).1
    exact not_mem_of_mem_split (List.mem_of_getLast? hlast)

/-- The first line of a text, without the carriage return before its end. -/
theorem linesOf_append {line : List Char} (h : '\n' ∉ line) (rest : List Char) :
    linesOf (line ++ '\n' :: rest) =
      (if line.getLast? = some '\r' then line.dropLast else line) :: linesOf rest := by
  obtain ⟨piece, pieces, hrest⟩ := List.exists_cons_of_ne_nil (split_ne_nil '\n' rest)
  simp only [linesOf, split_append h, hrest, List.dropLast_cons_cons, List.map_cons,
    List.getLast?_cons_cons, List.cons_append]

/-- The lines of a text each of whose lines is ended. -/
theorem linesOf_flatMap {lines : List (List Char)}
    (h : ∀ line ∈ lines, '\n' ∉ line ∧ line.getLast? ≠ some '\r') :
    linesOf (lines.flatMap (· ++ ['\n'])) = lines := by
  have hsplit : split '\n' (lines.flatMap (· ++ ['\n'])) = lines ++ [[]] := by
    induction lines with
    | nil => rfl
    | cons line lines ih =>
      rw [List.flatMap_cons, List.append_assoc, List.singleton_append,
        split_append (h line List.mem_cons_self).1, ih fun l hl => h l (List.mem_cons_of_mem _ hl)]
      rfl
  have hkept : lines.map (fun line => if line.getLast? = some '\r' then line.dropLast else line) =
      lines := by
    conv_rhs => rw [← List.map_id lines]
    exact List.map_congr_left fun line hline => if_neg (h line hline).2
  simp [linesOf, hsplit, hkept]

/-- The first and the last character of a trimmed text are no space. -/
theorem ends_of_trimChars {cs : List Char} (h : trimChars cs = cs) :
    (∀ c ∈ cs.head?, isWhitespace c = false) ∧ ∀ c ∈ cs.getLast?, isWhitespace c = false := by
  have hhead : ∀ ds : List Char, ∀ c ∈ (ds.dropWhile isWhitespace).head?, isWhitespace c = false := by
    intro ds c hc
    have hnot := List.head?_dropWhile_not isWhitespace ds
    rw [Option.mem_def.mp hc] at hnot
    simpa using hnot
  have hlast : ∀ c ∈ cs.getLast?, isWhitespace c = false := by
    intro c hc
    rw [← h, trimChars, List.getLast?_reverse] at hc
    exact hhead _ c hc
  refine ⟨fun c hc => ?_, hlast⟩
  obtain ⟨spaces, hspaces⟩ :=
    List.dropWhile_suffix isWhitespace (l := (cs.dropWhile isWhitespace).reverse)
  have hwhole := congrArg List.reverse hspaces
  rw [List.reverse_append, List.reverse_reverse] at hwhole
  change trimChars cs ++ _ = _ at hwhole
  refine hhead cs c ?_
  rw [← hwhole, h, Option.mem_def, List.head?_append, Option.mem_def.mp hc]
  rfl

/-- A text whose first and last character are no space is trimmed. -/
theorem trimChars_of_ends {cs : List Char} (hhead : ∀ c ∈ cs.head?, isWhitespace c = false)
    (hlast : ∀ c ∈ cs.getLast?, isWhitespace c = false) : trimChars cs = cs := by
  have hkeep : ∀ ds : List Char, (∀ c ∈ ds.head?, isWhitespace c = false) →
      ds.dropWhile isWhitespace = ds := by
    intro ds hds
    cases ds with
    | nil => rfl
    | cons d ds => exact List.dropWhile_cons_of_neg (by simp [hds d rfl])
  rw [trimChars, hkeep cs hhead, hkeep cs.reverse fun c hc => hlast c (List.head?_reverse ▸ hc),
    List.reverse_reverse]

theorem trimChars_cons {c : Char} (h : isWhitespace c = true) (cs : List Char) :
    trimChars (c :: cs) = trimChars cs := by
  rw [trimChars, List.dropWhile_cons_of_pos h, trimChars]

theorem trimChars_concat {c : Char} (h : isWhitespace c = true) (cs : List Char) :
    trimChars (cs ++ [c]) = trimChars cs := by
  rw [trimChars, trimChars, List.dropWhile_append]
  split
  · next hempty =>
    rw [List.isEmpty_iff.mp hempty, List.dropWhile_cons_of_pos h]
    rfl
  · rw [List.reverse_append, List.reverse_singleton, List.singleton_append,
      List.dropWhile_cons_of_pos h]

theorem parseUnsigned_toDigits {bits n : Nat} (h : n < 2 ^ bits) :
    parseUnsigned bits (Nat.toDigits 10 n) = .ok n := by
  have hdigit : ∀ c ∈ Nat.toDigits 10 n, c.isDigit = true := fun c hc =>
    Nat.isDigit_of_mem_toDigits (by decide) (by decide) hc
  have hsign : ∀ c, c.isDigit = false → Nat.toDigits 10 n ≠ [c] ∧
      (Nat.toDigits 10 n).head? ≠ some c := by
    intro c hc
    refine ⟨fun heq => ?_, fun hhead => ?_⟩
    · rw [hdigit c (heq ▸ List.mem_singleton_self c)] at hc
      cases hc
    · rw [hdigit c (List.mem_of_head? hhead)] at hc
      cases hc
  have hfold : ∀ (cs : List Char) (m : Nat), (∀ c ∈ cs, c.isDigit = true) →
      Nat.ofDigitChars 10 cs m < 2 ^ bits →
      cs.foldlM (pushDigit bits) m = .ok (Nat.ofDigitChars 10 cs m) := by
    intro cs
    induction cs with
    | nil => exact fun m _ _ => rfl
    | cons c cs ih =>
      intro m hcs hlt
      rw [Nat.ofDigitChars_cons] at hlt ⊢
      have hgrows : 10 * m + (c.toNat - '0'.toNat) ≤
          Nat.ofDigitChars 10 cs (10 * m + (c.toNat - '0'.toNat)) := by
        rw [Nat.ofDigitChars_eq_ofDigitChars_zero]
        exact Nat.le_trans (Nat.le_mul_of_pos_left _ (Nat.pow_pos (by decide : 0 < 10)))
          (Nat.le_add_right _ _)
      rw [List.foldlM_cons, pushDigit, if_pos (hcs c List.mem_cons_self), if_pos (by omega)]
      exact ih _ (fun d hd => hcs d (List.mem_cons_of_mem _ hd)) hlt
  rw [parseUnsigned, if_neg Nat.toDigits_ne_nil, if_neg (by
    rw [not_or]
    exact ⟨(hsign '+' rfl).1, (hsign '-' rfl).1⟩), if_neg (hsign '+' rfl).2,
    hfold _ 0 hdigit (by rwa [Nat.ofDigitChars_ten_toDigits]), Nat.ofDigitChars_ten_toDigits]

theorem splitTwice_cons {c d : Char} (h : d ≠ c) (cs : List Char) :
    splitTwice c (d :: cs) = (splitTwice c cs).map fun (a, b) => (d :: a, b) := by
  cases cs with
  | nil => rfl
  | cons e cs => rw [splitTwice, if_neg fun hde => h hde.1]

theorem splitTwice_append {c : Char} {a : List Char} (h : c ∉ a) (cs : List Char) :
    splitTwice c (a ++ cs) = (splitTwice c cs).map fun (x, y) => (a ++ x, y) := by
  induction a with
  | nil => simp
  | cons d a ih =>
    rw [List.mem_cons, not_or] at h
    rw [List.cons_append, splitTwice_cons (Ne.symm h.1), ih h.2, Option.map_map]
    rfl

/-- Between the joined pieces the separator is never doubled, where no piece is empty. -/
theorem splitTwice_intercalate {c : Char} {pieces : List (List Char)}
    (h : ∀ piece ∈ pieces, piece ≠ [] ∧ c ∉ piece) (cs : List Char) :
    splitTwice c ([c].intercalate pieces ++ cs) =
      (splitTwice c cs).map fun (x, y) => ([c].intercalate pieces ++ x, y) := by
  induction pieces with
  | nil => simp
  | cons piece pieces ih =>
    have hpiece := (h piece List.mem_cons_self).2
    cases pieces with
    | nil => rw [List.intercalate_singleton, splitTwice_append hpiece]
    | cons next pieces =>
      obtain ⟨hnext, hfree⟩ := h next (List.mem_cons_of_mem _ List.mem_cons_self)
      have hrest := ih fun p hp => h p (List.mem_cons_of_mem _ hp)
      obtain ⟨d, next', rfl⟩ := List.exists_cons_of_ne_nil hnext
      have hd : d ≠ c := fun heq => hfree (heq ▸ List.mem_cons_self)
      rw [List.intercalate_cons_cons, List.intercalate_cons_cons_left]
      rw [List.intercalate_cons_cons_left] at hrest
      generalize [c].intercalate (next' :: pieces) = joined at hrest ⊢
      have hsep : splitTwice c (c :: d :: (joined ++ cs)) =
          (splitTwice c (d :: (joined ++ cs))).map fun (x, y) => (c :: x, y) := by
        rw [splitTwice, if_neg fun hboth => hd hboth.2]
      rw [List.append_assoc, List.append_assoc, splitTwice_append hpiece]
      change (splitTwice c (c :: d :: (joined ++ cs))).map _ = _
      rw [hsep, show d :: (joined ++ cs) = d :: joined ++ cs from rfl, hrest, Option.map_map,
        Option.map_map]
      refine congrArg (Option.map · _) (funext fun x => ?_)
      simp

theorem splitTwice_of_not_mem {c : Char} {cs : List Char} (h : c ∉ cs) :
    splitTwice c cs = none := by
  induction cs with
  | nil => rfl
  | cons d cs ih =>
    rw [List.mem_cons, not_or] at h
    cases cs with
    | nil => rfl
    | cons e cs =>
      rw [splitTwice, if_neg (fun hde => h.1 hde.1.symm), ih h.2]
      rfl

/-- Space at the ends is trimmed away. -/
theorem trimChars_pad {before after : List Char} (hbefore : ∀ c ∈ before, isWhitespace c = true)
    (hafter : ∀ c ∈ after, isWhitespace c = true) (cs : List Char) :
    trimChars (before ++ cs ++ after) = trimChars cs := by
  induction before with
  | nil =>
    rw [List.nil_append]
    induction after using List.reverseRecOn with
    | nil => rw [List.append_nil]
    | append_singleton after c ih =>
      rw [← List.append_assoc, trimChars_concat (hafter c (by simp)),
        ih fun d hd => hafter d (List.mem_append_left _ hd)]
  | cons c before ih =>
    rw [List.cons_append, List.cons_append, trimChars_cons (hbefore c List.mem_cons_self),
      ih fun d hd => hbefore d (List.mem_cons_of_mem _ hd)]

/-- What is trimmed away is space. -/
theorem exists_pad (cs : List Char) : ∃ before after, cs = before ++ trimChars cs ++ after ∧
    (∀ c ∈ before, isWhitespace c = true) ∧ ∀ c ∈ after, isWhitespace c = true := by
  refine ⟨cs.takeWhile isWhitespace,
    ((cs.dropWhile isWhitespace).reverse.takeWhile isWhitespace).reverse, ?_, fun c hc => ?_,
    fun c hc => ?_⟩
  · rw [trimChars, List.append_assoc, ← List.reverse_append, List.takeWhile_append_dropWhile,
      List.reverse_reverse, List.takeWhile_append_dropWhile]
  · exact List.mem_takeWhile_imp hc
  · exact List.mem_takeWhile_imp (List.mem_reverse.mp hc)

/-- The first character of a trimmed text is the first that is no space. -/
theorem head?_trimChars (cs : List Char) :
    (trimChars cs).head? = cs.find? fun c => !isWhitespace c := by
  obtain ⟨before, after, hcs, hbefore, hafter⟩ := exists_pad cs
  have hends := (ends_of_trimChars (trimChars_trimChars cs)).1
  have hskip (spaces : List Char) (h : ∀ c ∈ spaces, isWhitespace c = true) :
      spaces.find? (fun c => !isWhitespace c) = none :=
    List.find?_eq_none.mpr fun c hc => by simp [h c hc]
  conv_rhs => rw [hcs]
  rw [List.find?_append, List.find?_append, hskip before hbefore, hskip after hafter,
    Option.none_or, Option.or_none]
  cases htrim : trimChars cs with
  | nil => rfl
  | cons c rest =>
    rw [htrim] at hends
    rw [List.find?_cons_of_pos (by simp [hends c rfl])]
    rfl

/-- And the last is the last that is no space. -/
theorem getLast?_trimChars (cs : List Char) :
    (trimChars cs).getLast? = cs.reverse.find? fun c => !isWhitespace c := by
  have hreverse : trimChars cs.reverse = (trimChars cs).reverse := by
    obtain ⟨before, after, hcs, hbefore, hafter⟩ := exists_pad cs
    have hflip : cs.reverse = after.reverse ++ (trimChars cs).reverse ++ before.reverse := by
      conv_lhs => rw [hcs]
      simp
    have hends := ends_of_trimChars (trimChars_trimChars cs)
    rw [hflip, trimChars_pad (fun c hc => hafter c (List.mem_reverse.mp hc))
      fun c hc => hbefore c (List.mem_reverse.mp hc)]
    refine trimChars_of_ends (fun c hc => ?_) fun c hc => ?_
    · rw [List.head?_reverse] at hc
      exact hends.2 c hc
    · rw [List.getLast?_reverse] at hc
      exact hends.1 c hc
  rw [← head?_trimChars, hreverse, List.head?_reverse]

theorem split_cons_of_ne {c d : Char} (h : d ≠ c) (cs : List Char) :
    ∃ piece pieces, split c cs = piece :: pieces ∧ split c (d :: cs) = (d :: piece) :: pieces := by
  obtain ⟨piece, pieces, hcs⟩ := List.exists_cons_of_ne_nil (split_ne_nil c cs)
  refine ⟨piece, pieces, hcs, ?_⟩
  rw [split, hcs]
  exact if_neg h

theorem split_concat_of_ne {c d : Char} (h : d ≠ c) (cs : List Char) :
    ∃ pieces piece, split c cs = pieces ++ [piece] ∧
      split c (cs ++ [d]) = pieces ++ [piece ++ [d]] := by
  induction cs with
  | nil => exact ⟨[], [], rfl, split_of_not_mem (by simpa using h.symm)⟩
  | cons e cs ih =>
    obtain ⟨pieces, piece, hcs, hconcat⟩ := ih
    by_cases he : e = c
    · subst he
      refine ⟨[] :: pieces, piece, ?_, ?_⟩
      · exact (split_append List.not_mem_nil cs).trans (by rw [hcs]; rfl)
      · exact (split_append List.not_mem_nil (cs ++ [d])).trans (by rw [hconcat]; rfl)
    · rw [List.cons_append, split, split, hcs, hconcat]
      cases pieces with
      | nil => exact ⟨[], e :: piece, if_neg he, if_neg he⟩
      | cons first pieces => exact ⟨(e :: first) :: pieces, piece, if_neg he, if_neg he⟩

/-- Trimming a text first makes no difference to its trimmed pieces. -/
theorem split_trimChars {c : Char} (h : isWhitespace c = false) (cs : List Char) :
    (split c (trimChars cs)).map trimChars = (split c cs).map trimChars := by
  obtain ⟨before, after, hcs, hbefore, hafter⟩ := exists_pad cs
  have hne {d : Char} (hd : isWhitespace d = true) : d ≠ c := by
    rintro rfl
    rw [h] at hd
    cases hd
  conv_rhs => rw [hcs]
  clear hcs
  induction before with
  | nil =>
    rw [List.nil_append]
    induction after using List.reverseRecOn with
    | nil => rw [List.append_nil]
    | append_singleton after d ih =>
      have hd := hafter d (by simp)
      obtain ⟨pieces, piece, hsplit, hconcat⟩ := split_concat_of_ne (hne hd) (trimChars cs ++ after)
      rw [ih fun e he => hafter e (List.mem_append_left _ he), ← List.append_assoc, hsplit, hconcat,
        List.map_append, List.map_append, List.map_singleton, List.map_singleton,
        trimChars_concat hd]
  | cons d before ih =>
    have hd := hbefore d List.mem_cons_self
    obtain ⟨piece, pieces, hsplit, hcons⟩ :=
      split_cons_of_ne (hne hd) (before ++ trimChars cs ++ after)
    rw [ih fun e he => hbefore e (List.mem_cons_of_mem _ he), List.cons_append, List.cons_append,
      hsplit, hcons, List.map_cons, List.map_cons, trimChars_cons hd]

/-- The two sides of the first separator, where the whole is trimmed before it is split. -/
theorem splitOnce_trimChars {c : Char} (hc : isWhitespace c = false) {a b : List Char} (h : c ∉ a) :
    ∃ a' b', splitOnce c (trimChars (a ++ c :: b)) = some (a', b') ∧ trimChars a' = trimChars a ∧
      trimChars b' = trimChars b := by
  obtain ⟨before, after, hpad, hbefore, hafter⟩ := exists_pad (a ++ c :: b)
  have hmem : c ∈ trimChars (a ++ c :: b) := mem_trimChars_of_not_whitespace (by simp) hc
  obtain ⟨a', b', htrim, ha'⟩ := List.eq_append_cons_of_mem hmem
  have hfront : c ∉ before ++ a' := by
    intro hin
    rcases List.mem_append.mp hin with hin | hin
    · rw [hbefore c hin] at hc
      cases hc
    · exact ha' hin
  have hsides : some (a, b) = some (before ++ a', b' ++ after) := by
    rw [← splitOnce_append h b, hpad, htrim, ← splitOnce_append hfront]
    simp
  obtain ⟨rfl, rfl⟩ := Prod.ext_iff.mp (Option.some.inj hsides)
  refine ⟨a', b', htrim ▸ splitOnce_append ha' b', ?_, ?_⟩
  · have hleft := trimChars_pad hbefore (fun d hd => absurd hd List.not_mem_nil) a'
    rw [List.append_nil] at hleft
    exact hleft.symm
  · exact (trimChars_pad (fun d hd => absurd hd List.not_mem_nil) hafter b').symm

end Text
