import Vpnmgr.Library.Json
import Vpnmgr.Library.Utf8

/-! What is cut short: a part of a text's bytes is no other text, and a part of an object's text is
read as no document. -/

namespace Utf8

/-- Decoding goes character by character. -/
theorem decode_append (a : List Char) (bs : List UInt8) :
    decode (encode a ++ bs) = (decode bs).map (a ++ ·) := by
  induction a with
  | nil =>
    rw [encode_nil, List.nil_append]
    exact (Option.map_id' ..).symm
  | cons c a ih =>
    have hstep : ∀ rest : List UInt8, decode (String.utf8EncodeChar c ++ rest) =
        (decode rest).map (c :: ·) := fun rest => by
      have h := ByteArray.utf8Decode?_utf8Encode_singleton_append (l := rest.toByteArray) (c := c)
      rw [List.utf8Encode_singleton, ← List.toByteArray_append] at h
      rw [decode, h, decode, Option.map_map, Option.map_map]
      exact congrArg (fun f => Option.map f rest.toByteArray.utf8Decode?) (by funext; simp)
    rw [encode_cons, List.append_assoc, hstep, ih, Option.map_map]
    rfl

theorem encode_of_decode {bs : List UInt8} {cs : List Char} (h : decode bs = some cs) :
    encode cs = bs := by
  obtain ⟨chars, hchars, rfl⟩ := Option.map_eq_some_iff.mp h
  have hsome : bs.toByteArray.utf8Decode?.isSome = true := by rw [hchars]; rfl
  have hback := ByteArray.utf8Encode_get_utf8Decode? (h := hsome)
  simp only [hchars, Option.get_some] at hback
  exact List.toByteArray_inj.mp hback

/-- What a part of the bytes decodes to is a part of the text. -/
theorem decode_part {part : List UInt8} {text cs : List Char} (hpart : part <+: encode cs)
    (h : decode part = some text) : text <+: cs := by
  obtain ⟨more, hmore⟩ := hpart
  have hwhole := decode_encode cs
  rw [← hmore, ← encode_of_decode h, decode_append] at hwhole
  obtain ⟨rest, _, hcs⟩ := Option.map_eq_some_iff.mp hwhole
  exact ⟨rest, hcs⟩

end Utf8

namespace Json

variable {α : Type}

/-- What has been read with something left is read with more behind it as well. -/
def Stands (item : List Char → Option (α × List Char)) : Prop :=
  ∀ {cs a rest}, item cs = some (a, rest) → rest ≠ [] → ∀ more,
    item (cs ++ more) = some (a, rest ++ more)

theorem skip_append {cs rest : List Char} {c : Char} (h : skip cs = c :: rest)
    (more : List Char) : skip (cs ++ more) = c :: (rest ++ more) := by
  have hne : cs.dropWhile isSpace ≠ [] := by rw [← skip, h]; exact List.cons_ne_nil _ _
  rw [skip, List.dropWhile_append, if_neg (by simpa using hne), ← skip, h, List.cons_append]

theorem readChars_stands {high : Option Nat} {cs s rest : List Char}
    (h : readChars high cs = some (s, rest)) (more : List Char) :
    readChars high (cs ++ more) = some (s, rest ++ more) := by
  have hmap : ∀ {c : Char} {high : Option Nat} {cs s rest : List Char},
      (∀ s rest, readChars high cs = some (s, rest) →
        readChars high (cs ++ more) = some (s, rest ++ more)) →
      ((readChars high cs).map fun r => (c :: r.1, r.2)) = some (s, rest) →
      ((readChars high (cs ++ more)).map fun r => (c :: r.1, r.2)) = some (s, rest ++ more) := by
    intro c high cs s rest ih h
    obtain ⟨⟨s', rest'⟩, hread, heq⟩ := Option.map_eq_some_iff.mp h
    cases heq
    rw [ih _ _ hread]
    rfl
  induction high, cs using readChars.induct generalizing s rest with
  | case1 => simp [readChars.eq_def] at h
  | case2 => simp [readChars.eq_def] at h
  | case3 high a b c d cs char hcode ih =>
    rw [readChars.eq_def] at h ⊢
    simp only [List.cons_append, if_true, hcode] at h ⊢
    exact hmap (fun _ _ => ih) h
  | case4 high a b c d cs n hcode ih =>
    rw [readChars.eq_def] at h ⊢
    simp only [List.cons_append, if_true, hcode] at h ⊢
    exact ih h
  | case5 high a b c d cs hcode =>
    rw [readChars.eq_def] at h
    simp only [if_true, hcode] at h
    cases h
  | case6 high cs hshort =>
    rw [readChars.eq_def] at h
    simp only [if_true] at h
    cases h
  | case7 e cs hu char hletter ih =>
    rw [readChars.eq_def] at h ⊢
    simp only [List.cons_append, if_true, hu, if_false, hletter] at h ⊢
    exact hmap (fun _ _ => ih) h
  | case8 high e cs hu hnone =>
    rw [readChars.eq_def] at h
    simp only [if_true, hu, if_false] at h
    cases h
  | case9 high c cs hc hhigh => simp [readChars.eq_def, hc, hhigh] at h
  | case10 high cs hhigh hquote =>
    rw [readChars.eq_def] at h ⊢
    simp only [List.cons_append, hquote, if_false, hhigh, if_true] at h ⊢
    cases h
    rfl
  | case11 high c cs hc hhigh hquote hcontrol =>
    rw [readChars.eq_def] at h
    simp only [hc, if_false, hhigh, hquote, hcontrol, if_true] at h
    cases h
  | case12 high c cs hc hhigh hquote hcontrol ih =>
    rw [readChars.eq_def] at h ⊢
    simp only [List.cons_append, hc, if_false, hhigh, hquote, hcontrol] at h ⊢
    exact hmap (fun _ _ => ih) h

theorem readNumber_stands (floats : Floats) : Stands (readNumber floats) := by
  intro cs v rest h hrest more
  rw [readNumber] at h ⊢
  obtain ⟨value, hvalue, heq⟩ := Option.map_eq_some_iff.mp h
  cases heq
  have htake : (cs ++ more).takeWhile isNumberChar = cs.takeWhile isNumberChar := by
    rw [List.takeWhile_append, if_neg]
    intro hall
    refine hrest (List.dropWhile_eq_nil_iff.mpr ?_)
    exact List.takeWhile_eq_self_iff.mp (List.takeWhile_sublist _ |>.eq_of_length hall)
  have hdrop : (cs ++ more).dropWhile isNumberChar = cs.dropWhile isNumberChar ++ more := by
    rw [List.dropWhile_append, if_neg (by simpa using hrest)]
  rw [htake, hdrop, hvalue, Option.map_some]

/-- A number has a text, if none is read from an empty one. -/
theorem readNumber_text {floats : Floats} (hempty : floats.value [] = none) {cs : List Char}
    {v : Value} {rest : List Char} (h : readNumber floats cs = some (v, rest)) :
    cs.takeWhile isNumberChar ≠ [] := by
  intro hnil
  have hint : intOf [] = none := rfl
  rw [readNumber, hnil] at h
  simp [hint, hempty] at h

theorem readScalar_stands {floats : Floats} (hempty : floats.value [] = none) :
    Stands (readScalar floats) := by
  intro cs v rest h hrest more
  unfold readScalar at h
  split at h
  · obtain ⟨⟨s, rest'⟩, hread, heq⟩ := Option.map_eq_some_iff.mp h
    cases heq
    rw [List.cons_append, readScalar, readChars_stands hread]
    rfl
  · cases h
    rfl
  · cases h
    rfl
  · cases h
    rfl
  · have htext := readNumber_text hempty h
    have hsplit : cs ++ more =
        cs.takeWhile isNumberChar ++ (cs.dropWhile isNumberChar ++ more) := by
      rw [← List.append_assoc, List.takeWhile_append_dropWhile]
    rw [hsplit, readScalar_number floats htext fun c hc => List.mem_takeWhile_imp hc, ← hsplit]
    exact readNumber_stands floats h hrest more

section Sequence

variable {item : List Char → Option (α × List Char)} {close : Char}

theorem items_stands (hitem : Stands item) {fuel : Nat} {cs rest : List Char} {as : List α}
    (h : items item close fuel cs = some (as, rest)) (more : List Char) {fuel' : Nat}
    (hfuel : fuel ≤ fuel') : items item close fuel' (cs ++ more) = some (as, rest ++ more) := by
  induction fuel generalizing cs as fuel' with
  | zero => cases h
  | succ fuel ih =>
    obtain ⟨fuel', rfl⟩ : ∃ k, fuel' = k + 1 := ⟨fuel' - 1, by omega⟩
    rw [items] at h ⊢
    obtain ⟨⟨a, left⟩, ha, h⟩ := Option.bind_eq_some_iff.mp h
    dsimp only at h
    split at h
    · cases h
    · next c left' hskip =>
      have hne : left ≠ [] := by
        rintro rfl
        cases hskip
      simp only [hitem ha hne more, Option.bind_eq_bind, Option.bind_some,
        skip_append hskip more]
      by_cases hclose : c = close
      · rw [if_pos hclose] at h ⊢
        cases h
        rfl
      rw [if_neg hclose] at h ⊢
      by_cases hcomma : c = ','
      · rw [if_pos hcomma] at h ⊢
        obtain ⟨⟨as', rest'⟩, has, heq⟩ := Option.bind_eq_some_iff.mp h
        cases heq
        rw [ih has (Nat.le_of_succ_le_succ hfuel)]
        rfl
      · rw [if_neg hcomma] at h
        cases h

theorem sequence_stands (hitem : Stands item) {cs rest : List Char} {as : List α}
    (h : sequence item close cs = some (as, rest)) (more : List Char) :
    sequence item close (cs ++ more) = some (as, rest ++ more) := by
  rw [sequence] at h ⊢
  split at h
  · cases h
  · next c left hskip =>
    rw [skip_append hskip more]
    dsimp only
    by_cases hclose : c = close
    · rw [if_pos hclose] at h ⊢
      cases h
      rfl
    rw [if_neg hclose] at h ⊢
    exact items_stands hitem h more (by rw [List.length_append]; exact Nat.le_add_right _ _)

end Sequence

theorem readMember_stands {value : List Char → Option (Value × List Char)} (hvalue : Stands value) :
    Stands (readMember value) := by
  intro cs e rest h hrest more
  unfold readMember at h ⊢
  split at h
  · next chars hquote =>
    rw [skip_append hquote more]
    obtain ⟨⟨name, left⟩, hname, h⟩ := Option.bind_eq_some_iff.mp h
    dsimp only at h
    split at h
    · next left' hcolon =>
      obtain ⟨⟨v, rest'⟩, hv, heq⟩ := Option.bind_eq_some_iff.mp h
      cases heq
      simp [readChars_stands hname more, skip_append hcolon more, hvalue hv hrest more]
    · cases h
  · cases h

theorem readScalar_cons {floats : Floats} (hempty : floats.value [] = none) {cs rest : List Char}
    {v : Value} (h : readScalar floats cs = some (v, rest)) : ∃ c left, cs = c :: left := by
  refine List.exists_cons_of_ne_nil ?_
  rintro rfl
  have hnumber : readNumber floats [] = some (v, rest) := h
  exact readNumber_text hempty hnumber rfl

theorem readValue_stands {floats : Floats} (hempty : floats.value [] = none) (depth : Nat) :
    Stands (readValue floats depth) := by
  induction depth with
  | zero =>
    intro cs v rest h hrest more
    rw [readValue] at h ⊢
    obtain ⟨c, left, hskip⟩ := readScalar_cons hempty h
    rw [skip_append hskip more, ← List.cons_append, ← hskip]
    exact readScalar_stands hempty h hrest more
  | succ depth ih =>
    intro cs v rest h hrest more
    rw [readValue] at h
    split at h
    · next left hskip =>
      obtain ⟨⟨vs, rest'⟩, hvs, heq⟩ := Option.map_eq_some_iff.mp h
      cases heq
      rw [readValue, skip_append hskip more]
      simp only [sequence_stands ih hvs more, Option.map_some]
    · next left hskip =>
      obtain ⟨⟨r, rest'⟩, hr, heq⟩ := Option.map_eq_some_iff.mp h
      cases heq
      rw [readValue, skip_append hskip more]
      simp only [sequence_stands (readMember_stands ih) hr more, Option.map_some]
    · next hbracket hbrace =>
      obtain ⟨c, left, hskip⟩ := readScalar_cons hempty h
      have hscalar := readScalar_stands hempty h hrest more
      rw [hskip, List.cons_append] at hscalar
      rw [readValue, skip_append hskip more]
      split
      · next heq => exact absurd ((List.cons.inj heq).1 ▸ hskip) (hbracket _)
      · next heq => exact absurd ((List.cons.inj heq).1 ▸ hskip) (hbrace _)
      · exact hscalar

/-- An object is read with whatever stands behind it, also with nothing left. -/
theorem readValue_object {floats : Floats} (hempty : floats.value [] = none) {depth : Nat}
    {cs left rest : List Char} {v : Value} (hbrace : skip cs = '\x7b' :: left)
    (h : readValue floats depth cs = some (v, rest)) (more : List Char) :
    readValue floats depth (cs ++ more) = some (v, rest ++ more) := by
  cases depth with
  | zero =>
    rw [readValue, hbrace] at h
    have hnumber : readNumber floats ('\x7b' :: left) = some (v, rest) := h
    exact absurd rfl (readNumber_text hempty hnumber)
  | succ depth =>
    rw [readValue, hbrace] at h
    obtain ⟨⟨r, rest'⟩, hr, heq⟩ := Option.map_eq_some_iff.mp h
    cases heq
    rw [readValue, skip_append hbrace more]
    simp only [sequence_stands (readMember_stands (readValue_stands hempty depth)) hr more,
      Option.map_some]

/-- Of the text of an object, no part is a document but the whole. -/
theorem read_part {floats : Floats} (hempty : floats.value [] = none)
    {r : List (String × Value)} (hfits : Fits maxDepth (.object r)) {part : List Char}
    (hpart : part <+: write floats (.object r)) {v : Value} (h : read floats part = some v) :
    part = write floats (.object r) := by
  obtain ⟨more, hmore⟩ := hpart
  obtain ⟨⟨v', rest⟩, hvalue, hv⟩ := Option.bind_eq_some_iff.mp h
  have hwhole := readValue_write floats hfits ((fun _ hc => (by cases hc)) : Ends [])
  rw [List.append_nil] at hwhole
  cases part with
  | nil =>
    have hnone : readScalar floats [] = some (v', rest) := hvalue
    obtain ⟨_, _, heq⟩ := readScalar_cons hempty hnone
    cases heq
  | cons c part =>
    have hc : c = '\x7b' := by
      rw [write, List.cons_append, List.cons_append] at hmore
      exact (List.cons.inj hmore).1
    subst hc
    have hbrace : skip ('\x7b' :: part) = '\x7b' :: part := skip_cons (by decide) _
    rw [← hmore, readValue_object hempty hbrace hvalue more] at hwhole
    have hnone : rest ++ more = [] := congrArg Prod.snd (Option.some.inj hwhole)
    rw [← hmore, (List.append_eq_nil_iff.mp hnone).2, List.append_nil]

end Json
