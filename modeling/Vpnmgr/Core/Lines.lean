import Vpnmgr.Core.WgConf
import Vpnmgr.Library.Alike

/-! The lines of a `.conf` apart from the spaces and comments in them, and when two texts are read
alike: line by line, section by section and field by field. -/

namespace Vpnmgr

open Fallible Text

/-- What a line holds. -/
inductive Line where
  | blank
  | header (name : String)
  | entry (key value : String)
  | other
  deriving DecidableEq, Repr

/-- A line without its comment and the space around it. -/
def bare (raw : List Char) : List Char := trimChars (stripComment raw)

def lineOf (raw : List Char) : Line :=
  if bare raw = [] then .blank
  else
    match headerName (bare raw) with
    | some name => .header (toAsciiLowercase (.ofList (trimChars name)))
    | none =>
      match splitOnce '=' (bare raw) with
      | none => .other
      | some (key, value) => .entry (.ofList (trimChars key)) (.ofList (trimChars value))

/-- What the loop does with what a line holds. -/
def Sections.take (s : Sections) (n : Nat) : Line → Except WgConfError Sections
  | .blank => .ok s
  | .header name =>
    if name = "interface" then .ok { s with current := some .interface }
    else if name = "peer" then .ok { s with peers := {} :: s.peers, current := some .peer }
    else .error (.unknownSection n name)
  | .entry key value => s.set key value n
  | .other => .error (.notKeyValue n)

theorem Sections.readLine_eq (s : Sections) (raw : List Char) (n : Nat) :
    s.readLine raw n = s.take n (lineOf raw) := by
  rw [readLine, lineOf, bare]
  split
  · rfl
  · cases headerName (trimChars (stripComment raw)) with
    | some name => rfl
    | none => cases splitOnce '=' (trimChars (stripComment raw)) <;> rfl

theorem lineOf_congr {raw raw' : List Char} (h : bare raw = bare raw') :
    lineOf raw = lineOf raw' := by
  rw [lineOf, lineOf, h]

/-- Whether a comment starts at the character. -/
def IsMark (c : Char) : Prop := c = '#' ∨ c = ';'

/-- Text without a comment. -/
def IsPlainText (cs : List Char) : Prop := ∀ c ∈ cs, ¬IsMark c

instance : DecidablePred IsMark := fun c => inferInstanceAs (Decidable (c = '#' ∨ c = ';'))

instance : DecidablePred IsPlainText := fun cs => List.decidableBAll _ cs

/-- A comment, or nothing. -/
def IsComment (cs : List Char) : Prop := ∀ c ∈ cs.head?, IsMark c

instance : DecidablePred IsComment
  | [] => isTrue fun c hc => by cases hc
  | c :: _ => decidable_of_iff (IsMark c) ⟨fun h d hd => by cases hd; exact h, fun h => h c rfl⟩

theorem IsPlainText.append {cs ds : List Char} (h : IsPlainText cs) (h' : IsPlainText ds) :
    IsPlainText (cs ++ ds) := fun c hc => (List.mem_append.mp hc).elim (h c) (h' c)

theorem isPlainText_of_isWhitespace {cs : List Char} (h : ∀ c ∈ cs, isWhitespace c = true) :
    IsPlainText cs := by
  rintro c hc (rfl | rfl) <;> exact absurd (h _ hc) (by decide)

/-- Every line is text and a comment. -/
theorem exists_comment (raw : List Char) :
    ∃ cs comment, raw = cs ++ comment ∧ IsPlainText cs ∧ IsComment comment := by
  refine ⟨stripComment raw, raw.dropWhile fun c => c ≠ '#' ∧ c ≠ ';',
    (List.takeWhile_append_dropWhile).symm, fun c hc => ?_, fun c hc => ?_⟩
  · simpa [IsMark] using List.mem_takeWhile_imp hc
  · have hnot := List.head?_dropWhile_not (fun c => decide (c ≠ '#' ∧ c ≠ ';')) raw
    rw [Option.mem_def.mp hc] at hnot
    simpa [IsMark, or_iff_not_imp_left] using hnot

theorem bare_eq {cs comment : List Char} (hcs : IsPlainText cs) (hcomment : IsComment comment) :
    bare (cs ++ comment) = trimChars cs := by
  have hnone : stripComment comment = [] := by
    cases comment with
    | nil => rfl
    | cons c comment =>
      refine List.takeWhile_cons_of_neg ?_
      rcases hcomment c rfl with rfl | rfl <;> decide
  have hstrip : stripComment (cs ++ comment) = cs ++ stripComment comment :=
    List.takeWhile_append_of_pos fun c hc => by simpa [IsMark] using hcs c hc
  rw [bare, hstrip, hnone, List.append_nil]

theorem bare_plain {cs : List Char} (h : IsPlainText cs) : bare cs = trimChars cs := by
  conv_lhs => rw [← List.append_nil cs]
  exact bare_eq h fun c hc => by cases hc

/-- A comment after a line is no part of it. -/
theorem bare_comment {comment : List Char} (h : IsComment comment) (raw : List Char) :
    bare (raw ++ comment) = bare raw := by
  obtain ⟨cs, before, rfl, hcs, hbefore⟩ := exists_comment raw
  have hboth : IsComment (before ++ comment) := by
    cases before with
    | nil => exact h
    | cons c before => exact hbefore
  rw [List.append_assoc, bare_eq hcs hboth, bare_eq hcs hbefore]

/-- The space around a line is no part of it, with a comment or without. -/
theorem bare_pad {before after : List Char} (hbefore : ∀ c ∈ before, isWhitespace c = true)
    (hafter : ∀ c ∈ after, isWhitespace c = true) (raw : List Char) :
    bare (before ++ raw ++ after) = bare raw := by
  have hplain := isPlainText_of_isWhitespace hbefore
  obtain ⟨cs, comment, rfl, hcs, hcomment⟩ := exists_comment raw
  cases comment with
  | nil =>
    have hplain' := isPlainText_of_isWhitespace hafter
    rw [List.append_nil, bare_plain ((hplain.append hcs).append hplain'), bare_plain hcs,
      trimChars_pad hbefore hafter]
  | cons c comment =>
    have hrest : IsComment (c :: comment ++ after) := hcomment
    have htrim := trimChars_pad hbefore (fun d hd => absurd hd List.not_mem_nil) cs
    rw [List.append_nil] at htrim
    rw [← List.append_assoc, List.append_assoc, bare_eq (hplain.append hcs) hrest,
      bare_eq hcs hcomment, htrim]

/-- Reading goes by what the lines hold: neither the carriage return before a line feed nor the line
feed that ends the text is any of it. -/
theorem Sections.read_eq (text : String) : read text =
    (((split '\n' text.toList).map lineOf).zipIdx 1).foldlM (fun s l => s.take l.2 l.1) {} := by
  have hread (lines : List (List Char)) : (lines.zipIdx 1).foldlM
      (fun s l => s.readLine l.1 l.2) ({} : Sections) =
        ((lines.map lineOf).zipIdx 1).foldlM (fun s l => s.take l.2 l.1) {} := by
    rw [List.zipIdx_map, List.foldlM_map]
    exact congrArg (fun f => List.foldlM f _ _) (funext fun s => funext fun _ => s.readLine_eq _ _)
  have hreturn (line : List Char) :
      lineOf (if line.getLast? = some '\r' then line.dropLast else line) = lineOf line := by
    split
    · next hlast =>
      obtain ⟨front, rfl⟩ := List.getLast?_eq_some_iff.mp hlast
      rw [List.dropLast_concat]
      have hreturn : ∀ c ∈ ['\r'], isWhitespace c = true := by
        intro c hc
        cases List.mem_singleton.mp hc
        decide
      have hpad : bare ([] ++ front ++ ['\r']) = bare front := bare_pad (by simp) hreturn front
      exact lineOf_congr hpad.symm
    · rfl
  obtain ⟨front, last, hsplit⟩ := (List.eq_nil_or_concat (split '\n' text.toList)).resolve_left
    (split_ne_nil _ _)
  rw [List.concat_eq_append] at hsplit
  have hlines : (linesOf text.toList).map lineOf =
      front.map lineOf ++ (if last = [] then [] else [lineOf last]) := by
    rw [linesOf, hsplit, List.dropLast_concat, List.getLast?_concat, List.map_append, List.map_map]
    refine congr_arg₂ _ (List.map_congr_left fun line _ => hreturn line) ?_
    by_cases hlast : last = []
    · simp [hlast]
    · simp [hlast]
  rw [read, hread, hlines, hsplit, List.map_append, List.map_singleton]
  by_cases hlast : last = []
  · rw [if_pos hlast, List.append_nil, List.zipIdx_append, List.foldlM_append, hlast]
    exact (bind_pure _).symm
  · rw [if_neg hlast]

/-! ### Sections that are read alike -/

/-- The keys that hold secrets. -/
def secretKeys : List String := ["privatekey", "presharedkey"]

/-- The keys whose values are lists. -/
def listKeys : List String := ["address", "allowedips", "dns"]

/-- How far apart two readings may be: the lines on which a value stands, the errors about them, the
texts of secrets and the secrets. -/
structure Distance where
  line : Nat → Nat → Prop
  error : WgConfError → WgConfError → Prop
  text : String → String → Prop
  secret : SecretKey → SecretKey → Prop

/-- Errors about lines no further apart are errors no further apart, and texts of secrets give
secrets, or the same error. -/
structure Distance.Sound (d : Distance) : Prop where
  error_self : ∀ e, d.error e e
  error : ∀ (e : Nat → WgConfError) {n m}, d.line n m → d.error (e n) (e m)
  text_self : ∀ v, d.text v v
  secret : ∀ {v w}, d.text v w →
    Alike (· = ·) d.secret (SecretKey.fromBase64 v) (SecretKey.fromBase64 w)

/-- Two values with their lines. -/
def Distance.Near (d : Distance) (V : String → String → Prop) (a b : String × Nat) : Prop :=
  V a.1 b.1 ∧ d.line a.2 b.2

/-- Sections with the same values, but for the secrets, and the same items of lists. -/
structure Section.Like (d : Distance) (s s' : Section) : Prop where
  secrets : ∀ key ∈ secretKeys, List.Forall₂ (d.Near d.text) (s.getAll key) (s'.getAll key)
  values : ∀ key, key ∉ secretKeys → key ∉ listKeys →
    List.Forall₂ (d.Near (· = ·)) (s.getAll key) (s'.getAll key)
  items : ∀ key ∈ listKeys, List.Forall₂ (d.Near (· = ·)) (s.itemsOf key) (s'.itemsOf key)

theorem Section.Like.empty (d : Distance) : ({} : Section).Like d {} :=
  ⟨fun _ _ => .nil, fun _ _ _ => .nil, fun _ _ => .nil⟩

structure Sections.Like (d : Distance) (s s' : Sections) : Prop where
  interface : s.interface.Like d s'.interface
  peers : List.Forall₂ (Section.Like d) s.peers s'.peers
  current : s.current = s'.current

theorem Sections.Like.empty (d : Distance) : ({} : Sections).Like d {} :=
  ⟨Section.Like.empty d, .nil, rfl⟩

/-- Credentials that are the same but for the secrets. -/
structure ClientConfig.Like (d : Distance) (c c' : ClientConfig) : Prop where
  privateKey : d.secret c.privateKey c'.privateKey
  presharedKey : Option.Rel d.secret c.presharedKey c'.presharedKey
  others : c' = { c with privateKey := c'.privateKey, presharedKey := c'.presharedKey }

theorem Distance.map_fst_of_near {d : Distance} {l l' : List (String × Nat)}
    (h : List.Forall₂ (d.Near (· = ·)) l l') : l.map (·.1) = l'.map (·.1) := by
  rw [← List.forall₂_eq_eq_eq, List.forall₂_map_left_iff, List.forall₂_map_right_iff]
  exact h.imp fun _ _ hab => hab.1

section Reading

variable {d : Distance} {s s' : Section} {key display : String}

section Key

variable {α : Type} {fromBase64 : String → Except KeyError α} {R : α → α → Prop}
  {V : String → String → Prop}

theorem badKey_alike {a b : String × Nat} (hd : d.Sound) (h : d.Near V a b)
    (hread : ∀ v w, V v w → Alike (· = ·) R (fromBase64 v) (fromBase64 w)) :
    Alike d.error R ((fromBase64 a.1).mapError (.badKey a.2 display))
      ((fromBase64 b.1).mapError (.badKey b.2 display)) := by
  refine (hread _ _ h.1).mapError fun e e' he => ?_
  rw [he]
  exact hd.error (fun n => .badKey n display e') h.2

theorem requiredKey_alike {missing : WgConfError} (hd : d.Sound)
    (h : List.Forall₂ (d.Near V) (s.getAll key) (s'.getAll key))
    (hread : ∀ v w, V v w → Alike (· = ·) R (fromBase64 v) (fromBase64 w)) :
    Alike d.error R (requiredKey fromBase64 s key display missing)
      (requiredKey fromBase64 s' key display missing) := by
  rw [requiredKey, requiredKey, s.get_eq, s'.get_eq]
  generalize s.getAll key = values, s'.getAll key = values' at h ⊢
  cases h with
  | nil => exact .error (hd.error_self missing)
  | cons hab _ => exact badKey_alike hd hab hread

theorem optionalKey_alike (hd : d.Sound)
    (h : List.Forall₂ (d.Near V) (s.getAll key) (s'.getAll key))
    (hread : ∀ v w, V v w → Alike (· = ·) R (fromBase64 v) (fromBase64 w)) :
    Alike d.error (Option.Rel R) (optionalKey fromBase64 s key display)
      (optionalKey fromBase64 s' key display) := by
  rw [optionalKey, optionalKey, s.get_eq, s'.get_eq]
  generalize s.getAll key = values, s'.getAll key = values' at h ⊢
  cases h with
  | nil => exact .ok .none
  | cons hab _ => exact (badKey_alike hd hab hread).map fun _ _ => .some

end Key

theorem parseScalar_alike {bits : Nat} (hd : d.Sound)
    (h : List.Forall₂ (d.Near (· = ·)) (s.getAll key) (s'.getAll key)) :
    Alike d.error (· = ·) (parseScalar bits s key display) (parseScalar bits s' key display) := by
  rw [parseScalar, parseScalar, s.get_eq, s'.get_eq]
  generalize s.getAll key = values, s'.getAll key = values' at h ⊢
  cases h with
  | nil => exact .ok rfl
  | @cons a b _ _ hab _ =>
    obtain ⟨hvalue, hline⟩ := hab
    dsimp only [List.head?_cons]
    rw [hvalue]
    refine Alike.map (Alike.mapError (Alike.self (parseUnsigned bits b.1.toList) (E := (· = ·))
      (R := (· = ·)) (fun _ => rfl) fun _ => rfl) fun e e' he => ?_) fun _ _ => congrArg some
    rw [he]
    exact hd.error (fun n => .badNumber n display b.1 e') hline

theorem parseList_alike (hd : d.Sound)
    (h : List.Forall₂ (d.Near (· = ·)) (s.itemsOf key) (s'.itemsOf key)) :
    Alike d.error (· = ·) (parseList s key display) (parseList s' key display) := by
  rw [← List.forall₂_eq_eq_eq]
  refine Alike.mapM h fun (item, n) (item', m) ⟨hitem, hline⟩ => ?_
  dsimp only at hitem hline ⊢
  rw [hitem]
  refine Alike.mapError (Alike.self (Cidr.fromStr item') (E := (· = ·)) (fun _ => rfl) fun _ => rfl)
    fun e e' he => ?_
  rw [he]
  exact hd.error (fun n => .badEntry n display item' e') hline

theorem Sections.peer_alike {s s' : Sections} (hd : d.Sound) (h : s.Like d s') :
    Alike d.error (Section.Like d) s.peer s'.peer := by
  rw [peer, peer]
  have hpeers := h.peers
  generalize s.peers = ps, s'.peers = ps' at hpeers ⊢
  cases hpeers with
  | nil => exact .error (hd.error_self _)
  | cons hp hrest =>
    cases hrest with
    | nil => exact .ok hp
    | cons hp' hrest =>
      have hcount := hrest.length_eq
      simp only [List.length_cons, hcount]
      exact .error (hd.error_self _)

/-- From sections that are alike come credentials that are alike, or errors. -/
theorem Sections.client_alike {s s' : Sections} (hd : d.Sound) (h : s.Like d s') :
    Alike d.error (ClientConfig.Like d) s.client s'.client := by
  have hsame {α : Type} (fromBase64 : String → Except KeyError α) (v w : String) (hvw : v = w) :
      Alike (· = ·) (· = ·) (fromBase64 v) (fromBase64 w) :=
    hvw ▸ Alike.self _ (fun _ => rfl) fun _ => rfl
  have hnames := Distance.map_fst_of_near (h.interface.items "dns" (by decide))
  rw [client, client]
  refine (peer_alike hd h).bind fun p p' hp => ?_
  refine (requiredKey_alike hd (h.interface.secrets _ (by decide)) fun _ _ => hd.secret).bind
    fun k k' hk => ?_
  refine (requiredKey_alike hd (hp.values _ (by decide) (by decide)) (hsame _)).bind
    fun pub _ hpub => ?_
  refine (optionalKey_alike hd (hp.secrets _ (by decide)) fun _ _ => hd.secret).bind
    fun psk psk' hpsk => ?_
  refine (parseList_alike hd (h.interface.items _ (by decide))).bind
    fun addresses _ haddresses => ?_
  subst hpub haddresses
  dsimp only
  split
  · exact .error (hd.error_self _)
  · refine (parseList_alike hd (hp.items _ (by decide))).bind fun allowedIps _ hallowedIps => ?_
    refine (parseScalar_alike hd (h.interface.values _ (by decide) (by decide))).bind
      fun mtu _ hmtu => ?_
    refine (parseScalar_alike hd (hp.values _ (by decide) (by decide))).bind
      fun keepalive _ hkeepalive => ?_
    subst hallowedIps hmtu hkeepalive
    refine .ok ⟨hk, hpsk, ?_⟩
    rw [hnames]

end Reading

/-! ### Entries that are alike -/

theorem Section.getAll_set (s : Section) (key value : String) (n : Nat) (k : String) :
    (s.set key value n).getAll k =
      s.getAll k ++ if toAsciiLowercase key = k then [(value, n)] else [] := by
  rw [getAll, set, List.filter_append, List.map_append]
  by_cases hkey : toAsciiLowercase key = k
  · rw [if_pos hkey, List.filter_cons_of_pos (by simpa using hkey)]
    rfl
  · rw [if_neg hkey, List.filter_cons_of_neg (by simpa using hkey)]
    rfl

theorem Section.itemsOf_set (s : Section) (key value : String) (n : Nat) (k : String) :
    (s.set key value n).itemsOf k = s.itemsOf k ++
      if toAsciiLowercase key = k then (Vpnmgr.itemsOf value).map (·, n) else [] := by
  rw [itemsOf, getAll_set, List.flatMap_append]
  split
  · rw [List.flatMap_singleton]
    rfl
  · rfl

/-- Entries of one key with one value keep sections alike, and so do entries of a secret key with
texts that are not too far apart. -/
theorem Section.Like.set {d : Distance} (hd : d.Sound) {s s' : Section} (h : s.Like d s')
    {key key' value value' : String} {n m : Nat}
    (hkey : toAsciiLowercase key = toAsciiLowercase key')
    (hvalue : value = value' ∨ toAsciiLowercase key ∈ secretKeys ∧ d.text value value')
    (hline : d.line n m) : (s.set key value n).Like d (s'.set key' value' m) := by
  have hplain (k : String) (hk : k ∉ secretKeys) (heq : toAsciiLowercase key = k) :
      value = value' := hvalue.resolve_right fun hsecret => hk (heq ▸ hsecret.1)
  refine ⟨fun k hk => ?_, fun k hsecret hlist => ?_, fun k hk => ?_⟩
  · have htext : d.text value value' := hvalue.elim (fun heq => heq ▸ hd.text_self value) And.right
    rw [getAll_set, getAll_set, ← hkey]
    refine List.rel_append (h.secrets k hk) ?_
    split
    · exact .cons ⟨htext, hline⟩ .nil
    · exact .nil
  · rw [getAll_set, getAll_set, ← hkey]
    refine List.rel_append (h.values k hsecret hlist) ?_
    split
    · next heq => exact .cons ⟨hplain k hsecret heq, hline⟩ .nil
    · exact .nil
  · have hnot : ∀ k ∈ listKeys, k ∉ secretKeys := by decide
    rw [itemsOf_set, itemsOf_set, ← hkey]
    refine List.rel_append (h.items k hk) ?_
    split
    · next heq =>
      rw [hplain k (hnot k hk) heq, List.forall₂_map_left_iff, List.forall₂_map_right_iff,
        List.forall₂_same]
      exact fun _ _ => ⟨rfl, hline⟩
    · exact .nil

/-- The sections with the current one changed, if one is current. -/
def Sections.within (s : Sections) (f : Section → Section) : Option Sections :=
  match s.current, s.peers with
  | some .interface, _ => some { s with interface := f s.interface }
  | some .peer, peer :: peers => some { s with peers := f peer :: peers }
  | _, _ => none

theorem Sections.set_eq (s : Sections) (key value : String) (n : Nat) : s.set key value n =
    (s.within (·.set key value n)).elim (.error (.outsideSection n key)) .ok := by
  obtain ⟨interface, peers, current⟩ := s
  rcases current with _ | _ | _
  · rfl
  · rfl
  · cases peers <;> rfl

theorem Sections.Like.within {d : Distance} {s s' : Sections} (h : s.Like d s')
    {f g : Section → Section} (hfg : ∀ p p', p.Like d p' → (f p).Like d (g p')) :
    Option.Rel (Sections.Like d) (s.within f) (s'.within g) := by
  obtain ⟨interface, peers, current⟩ := s
  obtain ⟨interface', peers', current'⟩ := s'
  obtain ⟨hinterface, hpeers, hcurrent⟩ := h
  dsimp only at hinterface hpeers hcurrent
  subst hcurrent
  rcases current with _ | _ | _
  · exact .none
  · exact .some ⟨hfg _ _ hinterface, hpeers, rfl⟩
  · cases hpeers with
    | nil => exact .none
    | cons hp hrest => exact .some ⟨hinterface, .cons (hfg _ _ hp) hrest, rfl⟩

/-- Two lines that hold the same, but for the text of a secret. -/
def Line.Like (d : Distance) (l l' : Line) : Prop :=
  l = l' ∨ ∃ key value value', toAsciiLowercase key ∈ secretKeys ∧ d.text value value' ∧
    l = .entry key value ∧ l' = .entry key value'

theorem Sections.Like.take {d : Distance} (hd : d.Sound) {s s' : Sections} (h : s.Like d s')
    {l l' : Line} (hl : l.Like d l') {n m : Nat} (hline : d.line n m) :
    Alike d.error (Sections.Like d) (s.take n l) (s'.take m l') := by
  have hset {key value value' : String}
      (hvalue : value = value' ∨ toAsciiLowercase key ∈ secretKeys ∧ d.text value value') :
      Alike d.error (Sections.Like d) (s.set key value n) (s'.set key value' m) := by
    rw [set_eq, set_eq]
    have hwithin := h.within fun p p' hp => hp.set hd rfl hvalue hline
    generalize s.within (·.set key value n) = t, s'.within (·.set key value' m) = t' at hwithin ⊢
    cases hwithin with
    | none => exact .error (hd.error (fun n => .outsideSection n key) hline)
    | some hs => exact .ok hs
  rcases hl with rfl | ⟨key, value, value', hkey, htext, rfl, rfl⟩
  · cases l with
    | blank => exact .ok h
    | header name =>
      rw [Sections.take, Sections.take]
      split
      · exact .ok ⟨h.interface, h.peers, rfl⟩
      · split
        · exact .ok ⟨h.interface, .cons (Section.Like.empty d) h.peers, rfl⟩
        · exact .error (hd.error (fun n => .unknownSection n name) hline)
    | entry key value => exact hset (.inl rfl)
    | other => exact .error (hd.error .notKeyValue hline)
  · exact hset (.inr ⟨hkey, htext⟩)

/-! ### The line of an entry -/

/-- Whether an entry stands in brackets, which make its line a header. -/
def Bracketed (key value : List Char) : Prop :=
  (trimChars key).head? = some '[' ∧ (trimChars value).getLast? = some ']'

theorem headerName_eq_some {cs name : List Char} :
    headerName cs = some name ↔ cs = '[' :: (name ++ [']']) := by
  rw [headerName]
  constructor
  · intro h
    split at h
    · next hends =>
      cases cs with
      | nil => cases hends.1
      | cons c cs =>
        obtain ⟨front, hfront⟩ := List.getLast?_eq_some_iff.mp hends.2
        rw [List.tail_cons] at hfront
        cases Option.some.inj hends.1
        rw [hfront, List.tail_cons, List.dropLast_concat] at h
        rw [hfront, Option.some.inj h]
    · cases h
  · rintro rfl
    rw [if_pos ⟨rfl, List.getLast?_concat⟩]
    exact congrArg some List.dropLast_concat

section Entry

variable {key value : List Char}

theorem bracketed_iff :
    Bracketed key value ↔ ∃ name, headerName (trimChars (key ++ '=' :: value)) = some name := by
  have hhead : (trimChars (key ++ '=' :: value)).head? = (trimChars key).head?.or (some '=') := by
    rw [head?_trimChars, head?_trimChars, List.find?_append]
    rfl
  have hlast : (trimChars (key ++ '=' :: value)).getLast? =
      (trimChars value).getLast?.or (some '=') := by
    rw [getLast?_trimChars, getLast?_trimChars, List.reverse_append, List.reverse_cons,
      List.append_assoc, List.find?_append]
    rfl
  have hor (o : Option Char) (c : Char) (hc : c ≠ '=') : o.or (some '=') = some c ↔ o = some c := by
    cases o with
    | none => simp [hc.symm]
    | some d => rfl
  rw [Bracketed, ← hor _ _ (by decide), ← hor _ ']' (by decide), ← hhead, ← hlast]
  constructor
  · rintro ⟨hopen, hclose⟩
    obtain ⟨rest, hrest⟩ := List.head?_eq_some_iff.mp hopen
    rw [hrest] at hclose ⊢
    cases rest with
    | nil => cases hclose
    | cons c rest =>
      rw [List.getLast?_cons_cons] at hclose
      obtain ⟨name, hname⟩ := List.getLast?_eq_some_iff.mp hclose
      exact ⟨name, headerName_eq_some.mpr (by rw [hname])⟩
  · rintro ⟨name, hname⟩
    rw [headerName_eq_some.mp hname]
    exact ⟨rfl, by rw [← List.cons_append, List.getLast?_concat]⟩

theorem bare_entry (hkey : IsPlainText key) (hvalue : IsPlainText value) :
    bare (key ++ '=' :: value) = trimChars (key ++ '=' :: value) := by
  refine bare_plain (hkey.append fun c hc => ?_)
  rcases List.mem_cons.mp hc with rfl | hc
  · rintro (h | h) <;> exact absurd h (by decide)
  · exact hvalue c hc

theorem lineOf_entry (hkey : IsPlainText key) (hvalue : IsPlainText value) (heq : '=' ∉ key)
    (hopen : ¬Bracketed key value) : lineOf (key ++ '=' :: value) =
      .entry (.ofList (trimChars key)) (.ofList (trimChars value)) := by
  obtain ⟨a, b, hsplit, ha, hb⟩ := splitOnce_trimChars (by decide : isWhitespace '=' = false) heq
    (b := value)
  have hne : trimChars (key ++ '=' :: value) ≠ [] := by
    intro hnil
    rw [hnil] at hsplit
    cases hsplit
  have hheader : headerName (trimChars (key ++ '=' :: value)) = none :=
    Option.eq_none_iff_forall_ne_some.mpr fun name hname => hopen (bracketed_iff.mpr ⟨name, hname⟩)
  rw [lineOf, bare_entry hkey hvalue, if_neg hne, hheader]
  dsimp only
  rw [hsplit]
  dsimp only
  rw [ha, hb]

/-- No section has an equals sign in its name. -/
theorem lineOf_bracketed (hkey : IsPlainText key) (hvalue : IsPlainText value)
    (hopen : Bracketed key value) : ∃ name, lineOf (key ++ '=' :: value) = .header name ∧
      '=' ∈ name.toList := by
  obtain ⟨name, hname⟩ := bracketed_iff.mp hopen
  have hne : trimChars (key ++ '=' :: value) ≠ [] := by
    intro hnil
    rw [hnil] at hname
    cases hname
  refine ⟨toAsciiLowercase (.ofList (trimChars name)), ?_, ?_⟩
  · rw [lineOf, bare_entry hkey hvalue, if_neg hne, hname]
  · have hmem : '=' ∈ trimChars (key ++ '=' :: value) :=
      mem_trimChars_of_not_whitespace (by simp) (by decide)
    rw [headerName_eq_some.mp hname] at hmem
    have hin : '=' ∈ name := by simpa using hmem
    rw [toAsciiLowercase, String.toList_ofList, String.toList_ofList]
    exact List.mem_map.mpr ⟨'=', mem_trimChars_of_not_whitespace hin (by decide), rfl⟩

/-- A key by one of these names begins with a letter. -/
theorem not_bracketed {names : List String} (hnames : ∀ name ∈ names, name.toList.head? ≠ some '[')
    (h : toAsciiLowercase (.ofList (trimChars key)) ∈ names) : ¬Bracketed key value := by
  rintro ⟨hopen, -⟩
  refine hnames _ h ?_
  rw [toAsciiLowercase, String.toList_ofList, String.toList_ofList, List.head?_map, hopen]
  rfl

end Entry

/-- The text of lines. -/
def Sample.textOf (lines : List (List Char)) : String := .ofList (['\n'].intercalate lines)

theorem Sample.split_textOf {lines : List (List Char)} (hne : lines ≠ [])
    (h : ∀ line ∈ lines, '\n' ∉ line) : split '\n' (textOf lines).toList = lines := by
  rw [textOf, String.toList_ofList, split_intercalate hne h]

end Vpnmgr
