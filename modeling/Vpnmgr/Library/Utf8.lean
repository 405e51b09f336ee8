import Vpnmgr.Library.BufRead
import Vpnmgr.Library.Text
import Mathlib.Tactic.Linarith

/-! UTF-8 as lists of bytes and of characters, and the lines of a text. A line feed is one byte, which
no other character's encoding contains, so the lines of the bytes are those of the characters. -/

namespace Utf8

open BufRead

/-- The bytes of a text. -/
def encode (cs : List Char) : List UInt8 := cs.flatMap String.utf8EncodeChar

/-- The text that some bytes encode, if they are UTF-8. -/
def decode (bs : List UInt8) : Option (List Char) := bs.toByteArray.utf8Decode?.map Array.toList

/-- The line feed, as a byte. -/
def newline : UInt8 := 10

@[simp] theorem encode_nil : encode [] = [] := rfl

@[simp] theorem encode_append (a b : List Char) : encode (a ++ b) = encode a ++ encode b :=
  List.flatMap_append

theorem encode_cons (c : Char) (cs : List Char) :
    encode (c :: cs) = String.utf8EncodeChar c ++ encode cs := rfl

@[simp] theorem decode_encode (cs : List Char) : decode (encode cs) = some cs := by
  have h := List.utf8Decode?_utf8Encode (l := cs)
  rw [decode, encode]
  change ((cs.utf8Encode).utf8Decode?).map Array.toList = some cs
  rw [h, Option.map_some]

theorem encode_eq_nil {cs : List Char} : encode cs = [] ↔ cs = [] := by
  constructor
  · intro h
    have hsome := decode_encode cs
    rw [h, ← encode_nil, decode_encode] at hsome
    exact (Option.some.inj hsome).symm
  · rintro rfl
    rfl

theorem encode_replicate {c : Char} {b : UInt8} (h : String.utf8EncodeChar c = [b]) (n : Nat) :
    encode (List.replicate n c) = List.replicate n b := by
  induction n with
  | zero => rfl
  | succ n ih => rw [List.replicate_succ, encode_cons, ih, h, List.replicate_succ, List.singleton_append]

theorem encode_newline : encode ['\n'] = [newline] := by decide

theorem newline_not_mem {c : Char} (h : c ≠ '\n') : newline ∉ String.utf8EncodeChar c := by
  have hval : c.val.toNat ≠ 10 := fun hval => h (Char.ext (UInt32.toNat_inj.mp hval))
  have hbyte : ∀ n : Nat, n % 256 ≠ 10 → newline ≠ UInt8.ofNat n := by
    intro n hn heq
    apply hn
    have := congrArg UInt8.toNat heq
    rw [UInt8.toNat_ofNat'] at this
    exact this.symm
  unfold String.utf8EncodeChar
  dsimp only
  split
  · simp only [List.mem_singleton]
    exact hbyte _ (by omega)
  split
  · simp only [List.mem_cons, List.not_mem_nil, or_false, not_or]
    exact ⟨hbyte _ (by omega), hbyte _ (by omega)⟩
  split
  · simp only [List.mem_cons, List.not_mem_nil, or_false, not_or]
    exact ⟨hbyte _ (by omega), hbyte _ (by omega), hbyte _ (by omega)⟩
  · simp only [List.mem_cons, List.not_mem_nil, or_false, not_or]
    exact ⟨hbyte _ (by omega), hbyte _ (by omega), hbyte _ (by omega), hbyte _ (by omega)⟩

theorem newline_not_mem_encode {cs : List Char} (h : '\n' ∉ cs) : newline ∉ encode cs := by
  rw [encode, List.mem_flatMap]
  rintro ⟨c, hc, hmem⟩
  exact newline_not_mem (fun hnl => h (hnl ▸ hc)) hmem

/-- A line of a text is a line of its bytes. -/
theorem isLine_encode {line rest : List Char} (h : IsLine '\n' line rest) :
    IsLine newline (encode line) (encode rest) := by
  obtain ⟨body, hbody, rfl | ⟨rfl, rfl⟩⟩ := h
  · exact ⟨encode body, newline_not_mem_encode hbody, .inl (by rw [encode_append]; rfl)⟩
  · exact ⟨encode line, newline_not_mem_encode hbody, .inr ⟨rfl, rfl⟩⟩

/-- The lines of a text, each with its line feed. What follows the last line feed is a line too,
unless nothing does. -/
def lines : List Char → List (List Char)
  | [] => []
  | c :: cs =>
    if c = '\n' then ['\n'] :: lines cs
    else
      match lines cs with
      | [] => [[c]]
      | line :: rest => (c :: line) :: rest

theorem lines_newline {body : List Char} (h : '\n' ∉ body) (rest : List Char) :
    lines (body ++ '\n' :: rest) = (body ++ ['\n']) :: lines rest := by
  induction body with
  | nil => rw [List.nil_append, lines, if_pos rfl, List.nil_append]
  | cons c body ih =>
    rw [List.mem_cons, not_or] at h
    rw [List.cons_append, lines, if_neg (Ne.symm h.1), ih h.2, List.cons_append]

theorem lines_cases {cs : List Char} (h : cs ≠ []) : ∃ line rest, cs = line ++ rest ∧ line ≠ [] ∧
    IsLine '\n' line rest ∧ lines cs = line :: lines rest := by
  induction cs with
  | nil => exact absurd rfl h
  | cons c cs ih =>
    rw [lines]
    by_cases hc : c = '\n'
    · rw [if_pos hc]
      exact ⟨['\n'], cs, by rw [hc]; rfl, List.cons_ne_nil _ _, ⟨[], List.not_mem_nil, .inl rfl⟩, rfl⟩
    rw [if_neg hc]
    by_cases hcs : cs = []
    · subst hcs
      exact ⟨[c], [], rfl, List.cons_ne_nil _ _,
        ⟨[c], by simpa using Ne.symm hc, .inr ⟨rfl, rfl⟩⟩, rfl⟩
    · obtain ⟨line, rest, hsplit, _, ⟨body, hbody, hline⟩, hlines⟩ := ih hcs
      have hnotin : '\n' ∉ c :: body := by
        rw [List.mem_cons, not_or]
        exact ⟨Ne.symm hc, hbody⟩
      refine ⟨c :: line, rest, by rw [hsplit]; rfl, List.cons_ne_nil _ _,
        ⟨c :: body, hnotin, ?_⟩, by rw [hlines]⟩
      exact hline.imp (fun heq => by rw [heq]; rfl) fun ⟨heq, hrest⟩ => ⟨by rw [heq], hrest⟩

/-- The text of a line, without its line feed. -/
def content (line : List Char) : List Char := line.takeWhile (· ≠ '\n')

theorem content_cases {line rest : List Char} (h : IsLine '\n' line rest) :
    line = content line ++ ['\n'] ∨ (line = content line ∧ rest = []) := by
  obtain ⟨body, hbody, hline⟩ := h
  have hkeep : ∀ tail : List Char, (body ++ tail).takeWhile (· ≠ '\n') =
      body ++ tail.takeWhile (· ≠ '\n') := fun tail =>
    List.takeWhile_append_of_pos fun c hc => decide_eq_true fun heq => hbody (heq ▸ hc)
  rcases hline with rfl | ⟨rfl, hrest⟩
  · rw [content, hkeep]
    exact .inl (by simp)
  · have hsame := hkeep []
    rw [List.append_nil, List.takeWhile_nil, List.append_nil] at hsame
    exact .inr ⟨hsame.symm, hrest⟩

theorem content_length_le (line : List Char) :
    (encode (content line)).length ≤ (encode line).length := by
  obtain ⟨tail, htail⟩ := List.takeWhile_prefix (p := (· ≠ '\n')) (l := line)
  conv_rhs => rw [← htail]
  rw [encode_append, List.length_append]
  exact Nat.le_add_right _ _

theorem trimEnd_content {line rest : List Char} (h : IsLine '\n' line rest) :
    Text.trimEndChars (content line) = Text.trimEndChars line := by
  rcases content_cases h with heq | ⟨heq, _⟩
  · conv_rhs => rw [heq, Text.trimEndChars_append (by decide)]
  · conv_rhs => rw [heq]

end Utf8
