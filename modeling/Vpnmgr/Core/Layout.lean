import Vpnmgr.Core.Lines
import Mathlib.Logic.Relation

/-! The import of a `.conf` goes by what its lines hold and not by how they are laid out. Every text
has a plain form, with one item on a line and no blank lines, and what that does is the same however
the text is laid out. -/

namespace Vpnmgr

open Fallible Text

/-! ### The plain form -/

/-- The items of a value between its commas, blank ones included. -/
def piecesOf (value : String) : List String :=
  ((split ',' value.toList).map trimChars).map String.ofList

theorem piecesOf_ne_nil (value : String) : piecesOf value ≠ [] := by
  simpa [piecesOf] using split_ne_nil ',' value.toList

/-- A line in plain form: nothing of a blank line, an entry by its key in lower case, and one entry
for every item of a list. What no section is named by is no header. -/
def Line.plain : Line → List Line
  | .blank => []
  | .header name => if name = "interface" ∨ name = "peer" then [.header name] else [.other]
  | .entry key value =>
    if toAsciiLowercase key ∈ listKeys then
      (piecesOf value).map (.entry (toAsciiLowercase key))
    else [.entry (toAsciiLowercase key) value]
  | .other => [.other]

def plainForm (lines : List (List Char)) : List Line := lines.flatMap fun raw => (lineOf raw).plain

/-- The credentials that a plain form stands for. It has no line numbers. -/
def Sections.meaning (lines : List Line) : Except WgConfError ClientConfig := do
  let sections ← lines.foldlM (fun s l => s.take 0 l) ({} : Sections)
  sections.client

/-- As far apart as the layout makes two readings: the lines and the errors may differ. -/
def Distance.ofLayout : Distance where
  line _ _ := True
  error _ _ := True
  text := (· = ·)
  secret := (· = ·)

theorem Distance.ofLayout_sound : ofLayout.Sound where
  error_self _ := trivial
  error _ _ _ _ := trivial
  text_self _ := rfl
  secret := by
    rintro v _ rfl
    exact Alike.self _ (fun _ => rfl) fun _ => rfl

/-- The items of a value are the items of its pieces. -/
theorem itemsOf_piecesOf (value : String) : (piecesOf value).flatMap itemsOf = itemsOf value := by
  have hpiece : ∀ piece ∈ split ',' value.toList, itemsOf (.ofList (trimChars piece)) =
      (([piece].map trimChars).filter (· ≠ [])).map String.ofList := by
    intro piece hmem
    have hfree : ',' ∉ trimChars piece := fun hin => not_mem_of_mem_split hmem (mem_trimChars hin)
    rw [itemsOf, String.toList_ofList, split_of_not_mem hfree, List.map_singleton,
      trimChars_trimChars, List.map_singleton]
  rw [itemsOf, piecesOf]
  generalize split ',' value.toList = pieces at hpiece ⊢
  induction pieces with
  | nil => rfl
  | cons piece pieces ih =>
    rw [List.map_cons, List.map_cons, List.flatMap_cons, hpiece piece List.mem_cons_self,
      ih fun p hp => hpiece p (List.mem_cons_of_mem _ hp), ← List.map_append, ← List.filter_append]
    rfl

/-- Entries of one key for the values, each from its line. -/
def Section.setAll (s : Section) (key : String) (values : List (String × Nat)) : Section :=
  values.foldl (fun s (value, n) => s.set key value n) s

theorem Section.getAll_setAll (s : Section) {key k : String} (h : toAsciiLowercase key ≠ k)
    (values : List (String × Nat)) : (s.setAll key values).getAll k = s.getAll k := by
  induction values generalizing s with
  | nil => rfl
  | cons value values ih =>
    refine (ih (s.set key value.1 value.2)).trans ?_
    rw [getAll_set, if_neg h, List.append_nil]

theorem Section.itemsOf_setAll (s : Section) (key k : String) (values : List (String × Nat)) :
    ((s.setAll key values).itemsOf k).map (·.1) = (s.itemsOf k).map (·.1) ++
      if toAsciiLowercase key = k then (values.map (·.1)).flatMap Vpnmgr.itemsOf else [] := by
  induction values generalizing s with
  | nil => simp [setAll]
  | cons value values ih =>
    refine (ih (s.set key value.1 value.2)).trans ?_
    rw [itemsOf_set, List.map_append, List.append_assoc]
    split
    · rw [List.map_cons, List.flatMap_cons, List.map_map]
      exact congrArg (_ ++ ·) (congrArg (· ++ _) (List.map_id _))
    · rfl

/-- A list stays the same however its items are spread over entries. -/
theorem Section.Like.setAll {s s' : Section} (h : s.Like .ofLayout s') {key key' : String}
    (hlist : toAsciiLowercase key ∈ listKeys) (hkey : toAsciiLowercase key' = toAsciiLowercase key)
    {values values' : List (String × Nat)}
    (hitems : (values.map (·.1)).flatMap Vpnmgr.itemsOf =
      (values'.map (·.1)).flatMap Vpnmgr.itemsOf) :
    (s.setAll key values).Like .ofLayout (s'.setAll key' values') := by
  refine ⟨fun k hk => ?_, fun k hk hnot => ?_, fun k hk => ?_⟩
  · have hne : toAsciiLowercase key ≠ k := fun heq =>
      (by decide : ∀ k ∈ listKeys, k ∉ secretKeys) _ hlist (heq ▸ hk)
    rw [getAll_setAll _ hne, getAll_setAll _ (hkey ▸ hne)]
    exact h.secrets k hk
  · have hne : toAsciiLowercase key ≠ k := fun heq => hnot (heq ▸ hlist)
    rw [getAll_setAll _ hne, getAll_setAll _ (hkey ▸ hne)]
    exact h.values k hk hnot
  · have hsame := Distance.map_fst_of_near (h.items k hk)
    have hall : ((s.setAll key values).itemsOf k).map (·.1) =
        ((s'.setAll key' values').itemsOf k).map (·.1) := by
      rw [itemsOf_setAll, itemsOf_setAll, hkey, hsame, hitems]
    rw [← List.forall₂_eq_eq_eq, List.forall₂_map_left_iff, List.forall₂_map_right_iff] at hall
    exact hall.imp fun _ _ hab => ⟨hab, trivial⟩

/-- Credentials that no layout tells apart are the same. -/
theorem ClientConfig.Like.eq {c c' : ClientConfig} (h : c.Like .ofLayout c') : c = c' := by
  obtain ⟨hprivate, hpreshared, hothers⟩ := h
  have hsame : c.presharedKey = c'.presharedKey := by
    generalize c.presharedKey = psk, c'.presharedKey = psk' at hpreshared ⊢
    cases hpreshared with
    | none => rfl
    | some hkey => exact congrArg some hkey
  rw [hothers]
  exact hprivate ▸ hsame ▸ rfl

theorem Sections.foldlM_items (s : Sections) (key : String) {values : List String}
    (h : values ≠ []) : (values.map (Line.entry key)).foldlM (fun s l => s.take 0 l) s =
      (s.within (·.setAll key (values.map (·, 0)))).elim (.error (.outsideSection 0 key)) .ok := by
  induction values generalizing s with
  | nil => exact absurd rfl h
  | cons value values ih =>
    rw [List.map_cons, List.foldlM_cons, Sections.take, set_eq]
    obtain ⟨interface, peers, current⟩ := s
    cases values with
    | nil =>
      rcases current with _ | _ | _
      · rfl
      · rfl
      · cases peers <;> rfl
    | cons next values =>
      rcases current with _ | _ | _
      · rfl
      · exact ih ⟨interface.set key value 0, peers, some .interface⟩ (List.cons_ne_nil _ _)
      · cases peers with
        | nil => rfl
        | cons peer peers =>
          exact ih ⟨interface, peer.set key value 0 :: peers, some .peer⟩ (List.cons_ne_nil _ _)

theorem Sections.Like.elim_within {s s' : Sections} (h : s.Like .ofLayout s')
    {f g : Section → Section} (hfg : ∀ p p', p.Like .ofLayout p' → (f p).Like .ofLayout (g p'))
    (e e' : WgConfError) :
    Alike Distance.ofLayout.error (Sections.Like .ofLayout) ((s.within f).elim (.error e) .ok)
      ((s'.within g).elim (.error e') .ok) := by
  have hrel := h.within hfg
  generalize s.within f = t, s'.within g = t' at hrel ⊢
  cases hrel with
  | none => exact .error trivial
  | some hs => exact .ok hs

/-- A line does to the sections what its plain form does. -/
theorem Sections.Like.plain {s s' : Sections} (h : s.Like .ofLayout s') (n : Nat) (l : Line) :
    Alike Distance.ofLayout.error (Sections.Like .ofLayout) (s.take n l)
      (l.plain.foldlM (fun s l => s.take 0 l) s') := by
  have hone (l' : Line) : [l'].foldlM (fun s l => s.take 0 l) s' = s'.take 0 l' := by
    rw [List.foldlM_cons]
    exact bind_pure _
  cases l with
  | blank => exact .ok h
  | header name =>
    rw [Line.plain]
    split
    · rw [hone]
      exact h.take Distance.ofLayout_sound (.inl rfl) trivial
    · next hname =>
      rw [not_or] at hname
      rw [hone, Sections.take, if_neg hname.1, if_neg hname.2]
      exact .error trivial
  | other =>
    rw [Line.plain, hone]
    exact .error trivial
  | entry key value =>
    rw [Line.plain, Sections.take, set_eq]
    split
    · next hkey =>
      have hitems : ([(value, n)].map (·.1)).flatMap itemsOf =
          (((piecesOf value).map (·, 0)).map (·.1)).flatMap itemsOf := by
        have hfst : ((piecesOf value).map (·, 0)).map (·.1) = piecesOf value := by
          rw [List.map_map]
          exact List.map_id _
        rw [hfst, itemsOf_piecesOf, List.map_singleton, List.flatMap_singleton]
      rw [foldlM_items _ _ (piecesOf_ne_nil value)]
      exact h.elim_within (fun p p' hp => hp.setAll hkey (toAsciiLowercase_idem key) hitems) _ _
    · rw [hone, Sections.take, set_eq]
      exact h.elim_within (fun p p' hp =>
        hp.set Distance.ofLayout_sound (toAsciiLowercase_idem key).symm (.inl rfl) trivial) _ _

/-- Credentials are read from both or from neither, and then they are the same. -/
theorem ok_iff_of_alike {x y : Except WgConfError ClientConfig}
    (h : Alike Distance.ofLayout.error (ClientConfig.Like .ofLayout) x y) (client : ClientConfig) :
    x = .ok client ↔ y = .ok client := by
  cases h with
  | error _ => exact iff_of_false (fun h => nomatch h) fun h => nomatch h
  | ok hclient => rw [hclient.eq]

/-- Parsing gives what the plain form of the lines stands for. -/
theorem ClientConfig.parse_meaning (text : String) (client : ClientConfig) :
    parse text = .ok client ↔
      Sections.meaning (plainForm (split '\n' text.toList)) = .ok client := by
  have hlines (lines : List (List Char)) (start : Nat) {s s' : Sections} (h : s.Like .ofLayout s') :
      Alike Distance.ofLayout.error (Sections.Like .ofLayout)
        (((lines.map lineOf).zipIdx start).foldlM (fun s l => s.take l.2 l.1) s)
        ((plainForm lines).foldlM (fun s l => s.take 0 l) s') := by
    induction lines generalizing start s s' with
    | nil => exact .ok h
    | cons line lines ih =>
      rw [plainForm, List.flatMap_cons, List.foldlM_append]
      exact (h.plain start (lineOf line)).bind fun _ _ hnext => ih (start + 1) hnext
  refine ok_iff_of_alike ?_ client
  rw [parse, Sections.read_eq]
  exact (hlines _ 1 (Sections.Like.empty _)).bind fun _ _ hs =>
    Sections.client_alike Distance.ofLayout_sound hs

/-! ### Laying a text out again -/

/-- Names that are the same but for the case of their letters and the space around them. -/
def SameWord (a b : List Char) : Prop :=
  (trimChars a).map Char.toLower = (trimChars b).map Char.toLower

/-- A blank line or a comment line. -/
def IsIdle (line : List Char) : Prop :=
  ∃ spaces comment, line = spaces ++ comment ∧ (∀ c ∈ spaces, isWhitespace c = true) ∧
    IsComment comment

/-- The two sides of the equals sign of an entry. -/
structure IsEntry (key value : List Char) : Prop where
  keyPlain : IsPlainText key
  valuePlain : IsPlainText value
  single : '=' ∉ key

/-- What stands between the commas of a value, but for blank items. -/
def listItems (value : List Char) : List (List Char) :=
  ((split ',' value).map trimChars).filter (· ≠ [])

/-- One line after another of a list by this name, with the items of all of them. -/
inductive ListLines (name : String) : List (List Char) → List (List Char) → Prop where
  | one {key value : List Char} : IsEntry key value → SameWord key name.toList →
      ListLines name [key ++ '=' :: value] (listItems value)
  | more {key value : List Char} {lines items : List (List Char)} : IsEntry key value →
      SameWord key name.toList → ListLines name lines items →
      ListLines name ((key ++ '=' :: value) :: lines) (listItems value ++ items)

/-- One change to the layout of a text, given by its lines. -/
inductive Relaid : List (List Char) → List (List Char) → Prop where
  /-- A blank line or a comment line is added. -/
  | insert (front back : List (List Char)) {line : List Char} : IsIdle line →
      Relaid (front ++ back) (front ++ line :: back)
  /-- A comment is added to a line. -/
  | comment (front back : List (List Char)) (line : List Char) {comment : List Char} :
      IsComment comment → Relaid (front ++ line :: back) (front ++ (line ++ comment) :: back)
  /-- Space is added around a line. -/
  | pad (front back : List (List Char)) (line : List Char) {before after : List Char} :
      (∀ c ∈ before, isWhitespace c = true) → (∀ c ∈ after, isWhitespace c = true) →
      Relaid (front ++ line :: back) (front ++ (before ++ line ++ after) :: back)
  /-- The header of a section is written another way. -/
  | header (front back : List (List Char)) {name name' : List Char} : IsPlainText name →
      IsPlainText name' → SameWord name name' →
      Relaid (front ++ ('[' :: (name ++ [']'])) :: back)
        (front ++ ('[' :: (name' ++ [']'])) :: back)
  /-- The key of an entry is written another way, and the space around its value. -/
  | entry (front back : List (List Char)) {key key' value value' : List Char} : IsEntry key value →
      IsEntry key' value' → SameWord key key' → trimChars value = trimChars value' →
      Relaid (front ++ (key ++ '=' :: value) :: back) (front ++ (key' ++ '=' :: value') :: back)
  /-- The items of a list are spread over lines another way. -/
  | list (front back : List (List Char)) {name : String} {lines lines' items : List (List Char)} :
      name ∈ listKeys → ListLines name lines items → ListLines name lines' items →
      Relaid (front ++ lines ++ back) (front ++ lines' ++ back)

theorem SameWord.lower {a b : List Char} (h : SameWord a b) :
    toAsciiLowercase (.ofList (trimChars a)) = toAsciiLowercase (.ofList (trimChars b)) := by
  rw [toAsciiLowercase, toAsciiLowercase, String.toList_ofList, String.toList_ofList, h]

theorem plain_idle {line : List Char} (h : IsIdle line) : (lineOf line).plain = [] := by
  obtain ⟨spaces, comment, rfl, hspaces, hcomment⟩ := h
  have hbare : bare (spaces ++ comment) = [] := by
    rw [bare_comment hcomment, bare_plain (isPlainText_of_isWhitespace hspaces)]
    have hpad := trimChars_pad hspaces (fun c hc => absurd hc List.not_mem_nil) []
    rwa [List.append_nil, List.append_nil] at hpad
  rw [lineOf, if_pos hbare]
  rfl

theorem lineOf_header {name : List Char} (h : IsPlainText name) :
    lineOf ('[' :: (name ++ [']'])) = .header (toAsciiLowercase (.ofList (trimChars name))) := by
  have hplain : IsPlainText ('[' :: (name ++ [']'])) := by
    intro c hc
    rcases List.mem_cons.mp hc with rfl | hc
    · decide
    · rcases List.mem_append.mp hc with hc | hc
      · exact h c hc
      · cases List.mem_singleton.mp hc
        decide
  have htrim : trimChars ('[' :: (name ++ [']'])) = '[' :: (name ++ [']']) := by
    refine trimChars_of_ends (fun c hc => ?_) fun c hc => ?_
    · cases Option.mem_def.mp hc
      decide
    · rw [← List.cons_append, List.getLast?_concat] at hc
      cases Option.mem_def.mp hc
      decide
  rw [lineOf, bare_plain hplain, htrim, if_neg (List.cons_ne_nil _ _), headerName_eq_some.mpr rfl]

theorem SameWord.bracketed {key key' value value' : List Char} (h : SameWord key key')
    (hvalue : trimChars value = trimChars value') :
    Bracketed key value ↔ Bracketed key' value' := by
  have hopen (cs : List Char) :
      (trimChars cs).head? = some '[' ↔ ((trimChars cs).map Char.toLower).head? = some '[' := by
    rw [List.head?_map, Option.map_eq_some_iff]
    constructor
    · exact fun hhead => ⟨'[', hhead, rfl⟩
    · rintro ⟨c, hc, hlower⟩
      rw [hc, (toLower_eq_iff (by decide)).mp hlower]
  rw [Bracketed, Bracketed, hopen, hopen key', h, hvalue]

theorem plain_bracketed {key value : List Char} (h : IsEntry key value)
    (hopen : Bracketed key value) : (lineOf (key ++ '=' :: value)).plain = [.other] := by
  obtain ⟨name, hname, hmem⟩ := lineOf_bracketed h.keyPlain h.valuePlain hopen
  rw [hname, Line.plain]
  refine if_neg ?_
  rintro (rfl | rfl) <;> exact absurd hmem (by decide)

theorem plain_entry {key key' value value' : List Char} (h : IsEntry key value)
    (h' : IsEntry key' value') (hkey : SameWord key key')
    (hvalue : trimChars value = trimChars value') :
    (lineOf (key ++ '=' :: value)).plain = (lineOf (key' ++ '=' :: value')).plain := by
  by_cases hopen : Bracketed key value
  · rw [plain_bracketed h hopen, plain_bracketed h' ((hkey.bracketed hvalue).mp hopen)]
  · have hopen' := mt (hkey.bracketed hvalue).mpr hopen
    rw [lineOf_entry h.keyPlain h.valuePlain h.single hopen,
      lineOf_entry h'.keyPlain h'.valuePlain h'.single hopen', Line.plain, Line.plain, hkey.lower,
      hvalue]


/-- Plain lines that do the same to sections that are alike. -/
def SameRun (lines lines' : List Line) : Prop :=
  ∀ s s' : Sections, s.Like .ofLayout s' →
    Alike Distance.ofLayout.error (Sections.Like .ofLayout) (lines.foldlM (fun s l => s.take 0 l) s)
      (lines'.foldlM (fun s l => s.take 0 l) s')

theorem SameRun.self (lines : List Line) : SameRun lines lines := by
  intro s s' h
  refine Alike.foldlM (List.forall₂_same.mpr fun _ _ => rfl) (fun s t l l' hs hl => ?_) h
  exact hs.take Distance.ofLayout_sound (.inl hl) trivial

theorem SameRun.append {lines lines' next next' : List Line} (h : SameRun lines lines')
    (hnext : SameRun next next') : SameRun (lines ++ next) (lines' ++ next') := by
  intro s s' hs
  rw [List.foldlM_append, List.foldlM_append]
  exact (h s s' hs).bind hnext

theorem SameRun.meaning {lines lines' : List Line} (h : SameRun lines lines')
    (client : ClientConfig) :
    Sections.meaning lines = .ok client ↔ Sections.meaning lines' = .ok client :=
  ok_iff_of_alike ((h _ _ (Sections.Like.empty _)).bind fun _ _ hs =>
    Sections.client_alike Distance.ofLayout_sound hs) client

theorem lower_listKey {name : String} (h : name ∈ listKeys) : toAsciiLowercase name = name :=
  (by decide +kernel : ∀ name ∈ listKeys, toAsciiLowercase name = name) name h

/-- The lines of a list in plain form: an entry for each piece, and among them the items. -/
theorem ListLines.plain {name : String} {lines items : List (List Char)}
    (h : ListLines name lines items) (hname : name ∈ listKeys) : ∃ values, values ≠ [] ∧
      plainForm lines = values.map (Line.entry name) ∧
      values.flatMap itemsOf = items.map String.ofList := by
  have hline {key value : List Char} (hentry : IsEntry key value)
      (hkey : SameWord key name.toList) : (lineOf (key ++ '=' :: value)).plain =
          (piecesOf (.ofList (trimChars value))).map (Line.entry name) ∧
        itemsOf (.ofList (trimChars value)) = (listItems value).map String.ofList := by
    have hlower : toAsciiLowercase (.ofList (trimChars key)) = name := by
      rw [hkey.lower]
      exact (by decide +kernel : ∀ name ∈ listKeys,
        toAsciiLowercase (.ofList (trimChars name.toList)) = name) name hname
    rw [lineOf_entry hentry.keyPlain hentry.valuePlain hentry.single
      (not_bracketed (by decide) (hlower.symm ▸ hname)), Line.plain, hlower, if_pos hname, itemsOf,
      String.toList_ofList, split_trimChars (by decide), listItems]
    exact ⟨rfl, rfl⟩
  induction h with
  | @one key value hentry hkey =>
    obtain ⟨hplain, hitems⟩ := hline hentry hkey
    refine ⟨piecesOf (.ofList (trimChars value)), piecesOf_ne_nil _, ?_, ?_⟩
    · rw [plainForm, List.flatMap_singleton, hplain]
    · rw [itemsOf_piecesOf, hitems]
  | @more key value _ _ hentry hkey _ ih =>
    obtain ⟨values, _, hvalues, hrest⟩ := ih
    obtain ⟨hplain, hitems⟩ := hline hentry hkey
    refine ⟨piecesOf (.ofList (trimChars value)) ++ values, ?_, ?_, ?_⟩
    · exact List.append_ne_nil_of_left_ne_nil (piecesOf_ne_nil _) _
    · rw [List.map_append, ← hvalues, plainForm, List.flatMap_cons, hplain, plainForm]
    · rw [List.flatMap_append, itemsOf_piecesOf, hitems, hrest, List.map_append]

theorem ListLines.sameRun {name : String} {lines lines' items : List (List Char)}
    (h : ListLines name lines items) (h' : ListLines name lines' items) (hname : name ∈ listKeys) :
    SameRun (plainForm lines) (plainForm lines') := by
  obtain ⟨values, hne, hplain, hitems⟩ := h.plain hname
  obtain ⟨values', hne', hplain', hitems'⟩ := h'.plain hname
  intro s s' hs
  have hfst (vs : List String) : (vs.map (·, 0)).map (·.1) = vs := by
    rw [List.map_map]
    exact List.map_id _
  rw [hplain, hplain', Sections.foldlM_items _ _ hne, Sections.foldlM_items _ _ hne']
  refine hs.elim_within (fun p p' hp => hp.setAll ((lower_listKey hname).symm ▸ hname) rfl ?_) _ _
  rw [hfst, hfst, hitems, hitems']

theorem plainForm_append (lines lines' : List (List Char)) :
    plainForm (lines ++ lines') = plainForm lines ++ plainForm lines' := List.flatMap_append

theorem plainForm_cons (line : List Char) (lines : List (List Char)) :
    plainForm (line :: lines) = (lineOf line).plain ++ plainForm lines := List.flatMap_cons

/-- No change to the layout changes what the plain form does. -/
theorem Relaid.sameRun {lines lines' : List (List Char)} (h : Relaid lines lines') :
    SameRun (plainForm lines) (plainForm lines') := by
  have hline (front back : List (List Char)) {line line' : List Char}
      (heq : (lineOf line).plain = (lineOf line').plain) :
      SameRun (plainForm (front ++ line :: back)) (plainForm (front ++ line' :: back)) := by
    rw [plainForm_append, plainForm_append, plainForm_cons, plainForm_cons, heq]
    exact .self _
  cases h with
  | insert front back hidle =>
    rw [plainForm_append, plainForm_append, plainForm_cons, plain_idle hidle, List.nil_append]
    exact .self _
  | comment front back line hcomment =>
    exact hline front back (by rw [lineOf_congr (bare_comment hcomment line)])
  | pad front back line hbefore hafter =>
    exact hline front back (by rw [lineOf_congr (bare_pad hbefore hafter line)])
  | header front back hplain hplain' hname =>
    exact hline front back (by rw [lineOf_header hplain, lineOf_header hplain', hname.lower])
  | entry front back hentry hentry' hkey hvalue =>
    exact hline front back (plain_entry hentry hentry' hkey hvalue)
  | list front back hname hlines hlines' =>
    rw [plainForm_append, plainForm_append, plainForm_append, plainForm_append]
    exact ((SameRun.self _).append (hlines.sameRun hlines' hname)).append (.self _)

/-- Texts that are laid out differently, by any number of changes one way or the other, parse to the
same credentials, or neither does. -/
theorem ClientConfig.parse_relaid {text text' : String}
    (h : Relation.EqvGen Relaid (split '\n' text.toList) (split '\n' text'.toList))
    (client : ClientConfig) : parse text' = .ok client ↔ parse text = .ok client := by
  have hmeaning (lines lines' : List (List Char)) (h : Relation.EqvGen Relaid lines lines') :
      Sections.meaning (plainForm lines) = .ok client ↔
        Sections.meaning (plainForm lines') = .ok client := by
    induction h with
    | rel _ _ h => exact h.sameRun.meaning client
    | refl _ => exact .rfl
    | symm _ _ _ ih => exact ih.symm
    | trans _ _ _ _ _ ih ih' => exact ih.trans ih'
  rw [parse_meaning, parse_meaning, hmeaning _ _ h]

/-- The lines of a `.conf` around those of its interface's header and address. -/
def Sample.linesWith (before header addresses : List (List Char)) : List (List Char) :=
  before ++ header ++ ["PrivateKey = AAAAAAAAAAAAAAAAAAAAAAAAAAAAAAAAAAAAAAAAAAA=".toList] ++
    addresses ++ ["[Peer]".toList,
      "PublicKey = AAAAAAAAAAAAAAAAAAAAAAAAAAAAAAAAAAAAAAAAAAA=".toList]

def Sample.laid : List (List Char) :=
  linesWith [] ['[' :: ("Interface".toList ++ [']'])]
    ["Address ".toList ++ '=' :: " 10.0.0.2/32, fd00::2/128".toList]

/-- The same with a comment, a header in capitals, and a line for each address. -/
def Sample.relaid : List (List Char) :=
  linesWith ["# laid out again".toList] ['[' :: (" INTERFACE ".toList ++ [']'])]
    ["address".toList ++ '=' :: "10.0.0.2/32".toList,
      "ADDRESS".toList ++ '=' :: "fd00::2/128".toList]

theorem Sample.laid_relaid : Relation.EqvGen Relaid laid relaid := by
  have hitems : listItems "10.0.0.2/32".toList ++ listItems "fd00::2/128".toList =
      listItems " 10.0.0.2/32, fd00::2/128".toList := by decide +kernel
  have hword : SameWord "Interface".toList " INTERFACE ".toList := by
    rw [SameWord]
    decide +kernel
  have hkey : ∀ key ∈ ["Address ".toList, "address".toList, "ADDRESS".toList],
      SameWord key "address".toList := by
    simp only [SameWord]
    decide +kernel
  have hone : ListLines "address" ["Address ".toList ++ '=' :: " 10.0.0.2/32, fd00::2/128".toList]
      (listItems " 10.0.0.2/32, fd00::2/128".toList) :=
    .one ⟨by decide +kernel, by decide +kernel, by decide +kernel⟩ (hkey _ (by simp))
  have htwo : ListLines "address" ["address".toList ++ '=' :: "10.0.0.2/32".toList,
      "ADDRESS".toList ++ '=' :: "fd00::2/128".toList]
      (listItems " 10.0.0.2/32, fd00::2/128".toList) :=
    hitems ▸ .more ⟨by decide +kernel, by decide +kernel, by decide +kernel⟩ (hkey _ (by simp))
      (.one ⟨by decide +kernel, by decide +kernel, by decide +kernel⟩ (hkey _ (by simp)))
  have hidle : IsIdle "# laid out again".toList := ⟨[], _, rfl, by simp, by decide +kernel⟩
  refine .trans _ _ _ (.rel _ _ (.insert [] laid hidle)) ?_
  refine .trans _ _ _ (.rel _ _ (.header ["# laid out again".toList] laid.tail
    (by decide +kernel) (by decide +kernel) hword)) ?_
  exact .rel _ _ (.list (relaid.take 3) (relaid.drop 5) (by decide) hone htwo)

theorem Sample.relaid_parses : ∃ client, ClientConfig.parse (textOf laid) = .ok client ∧
    ClientConfig.parse (textOf relaid) = .ok client := by
  have hlaid : split '\n' (textOf laid).toList = laid :=
    split_textOf (by simp [laid, linesWith]) (by decide +kernel)
  have hrelaid : split '\n' (textOf relaid).toList = relaid :=
    split_textOf (by simp [relaid, linesWith]) (by decide +kernel)
  have hok : (Sections.meaning (plainForm laid)).isOk = true := by decide +kernel
  cases hmeaning : Sections.meaning (plainForm laid) with
  | error e =>
    rw [hmeaning] at hok
    cases hok
  | ok client =>
    have hclient : ClientConfig.parse (textOf laid) = .ok client := by
      rw [ClientConfig.parse_meaning, hlaid, hmeaning]
    refine ⟨client, hclient, (ClientConfig.parse_relaid ?_ client).mpr hclient⟩
    rw [hlaid, hrelaid]
    exact laid_relaid

end Vpnmgr
