import Vpnmgr.Core.Import
import Vpnmgr.Core.Lines

/-! The `.conf` rendered for a chosen server, and that parsing it gives back the credentials it was
rendered from. -/

namespace Vpnmgr

open Fields Text

/-- The entries under `[Interface]`. Nameservers and search domains share a key, in that order. -/
def ClientConfig.interfaceEntries (client : ClientConfig) : List (String × String) :=
  let dns := client.dns.map IpAddr.display ++ client.searchDomains
  [("Address", ", ".intercalate (client.addresses.map Cidr.display)),
    ("PrivateKey", client.privateKey.exposeBase64)] ++
  (if dns = [] then [] else [("DNS", ", ".intercalate dns)]) ++
  (client.mtu.map fun mtu => ("MTU", toString mtu)).toList

/-- The entries under `[Peer]`. -/
def ClientConfig.peerEntries (client : ClientConfig) (endpoint : SocketAddr) :
    List (String × String) :=
  [("PublicKey", client.peerPublicKey.toBase64)] ++
  (client.presharedKey.map fun psk => ("PresharedKey", psk.exposeBase64)).toList ++
  [("Endpoint", endpoint.display),
    ("AllowedIPs", ", ".intercalate (client.allowedIps.map Cidr.display))] ++
  (client.persistentKeepalive.map fun k => ("PersistentKeepalive", toString k)).toList

def entryLine (entry : String × String) : String := entry.1 ++ " = " ++ entry.2

/-- A complete `.conf` pointing at `endpoint`. -/
def toConf (client : ClientConfig) (endpoint : SocketAddr) : String :=
  let lines := "[Interface]" :: client.interfaceEntries.map entryLine ++
    "" :: "[Peer]" :: (client.peerEntries endpoint).map entryLine
  String.join (lines.map (· ++ "\n"))

/-! ### What an entry may hold -/

/-- A value that an entry gives back as it is: trimmed, on one line, without a comment. -/
structure IsValue (v : String) : Prop where
  ne : v.toList ≠ []
  trimmed : trimChars v.toList = v.toList
  plain : ∀ c ∈ v.toList, c ≠ '\n' ∧ c ≠ '#' ∧ c ≠ ';'

/-- An item that a comma-separated value gives back as it is. -/
structure IsItem (v : String) : Prop extends IsValue v where
  comma : ',' ∉ v.toList

/-- The entries of a section, each with the number of its line. -/
def numbered (start : Nat) (entries : List (String × String)) : List Entry :=
  (entries.zipIdx start).map fun (e, line) => ⟨toAsciiLowercase e.1, e.2, line⟩

theorem isValue_of_not_whitespace {v : String} (hne : v.toList ≠ [])
    (h : ∀ c ∈ v.toList, isWhitespace c = false ∧ c ≠ '#' ∧ c ≠ ';') : IsValue v where
  ne := hne
  trimmed := trimChars_of_not_whitespace fun c hc => (h c hc).1
  plain c hc := by
    refine ⟨?_, (h c hc).2⟩
    rintro rfl
    exact absurd (h _ hc).1 (by decide)

/-! ### Reading one line -/

/-- A key is a word. -/
def IsKey (key : String) : Prop :=
  key.toList ≠ [] ∧ ∀ c ∈ key.toList, isWhitespace c = false ∧ c ≠ '#' ∧ c ≠ ';' ∧ c ≠ '=' ∧ c ≠ '['

instance : DecidablePred IsKey := fun key =>
  @instDecidableAnd _ _ inferInstance (List.decidableBAll _ key.toList)

theorem toList_entryLine (key value : String) : (entryLine (key, value)).toList =
    (key.toList ++ [' ']) ++ '=' :: (' ' :: value.toList) := by
  simp [entryLine]

theorem getLast?_entryLine (key : String) {value : String} (h : value.toList ≠ []) :
    (entryLine (key, value)).toList.getLast? = value.toList.getLast? := by
  rw [toList_entryLine, List.getLast?_append_of_ne_nil _ (List.cons_ne_nil _ _)]
  obtain ⟨c, cs, hcs⟩ := List.exists_cons_of_ne_nil h
  rw [hcs]
  rfl

/-- The line of an entry is read as that entry. -/
theorem readLine_entry (s : Sections) {key value : String} (hkey : IsKey key)
    (hvalue : IsValue value) (line : Nat) :
    s.readLine (entryLine (key, value)).toList line = s.set key value line := by
  obtain ⟨-, hword⟩ := hkey
  have htrimKey : trimChars (key.toList ++ [' ']) = key.toList := by
    rw [trimChars_concat (by decide), trimChars_of_not_whitespace fun c hc => (hword c hc).1]
  have htrimValue : trimChars (' ' :: value.toList) = value.toList := by
    rw [trimChars_cons (by decide), hvalue.trimmed]
  have hspace : IsPlainText [' '] := by decide
  have hkeyPlain : IsPlainText (key.toList ++ [' ']) :=
    IsPlainText.append (fun c hc => not_or.mpr ⟨(hword c hc).2.1, (hword c hc).2.2.1⟩) hspace
  have hvaluePlain : IsPlainText (' ' :: value.toList) :=
    hspace.append fun c hc => not_or.mpr (hvalue.plain c hc).2
  have hsingle : '=' ∉ key.toList ++ [' '] := by
    intro h
    rcases List.mem_append.mp h with h | h
    · exact (hword '=' h).2.2.2.1 rfl
    · exact absurd h (by decide)
  have hopen : ¬Bracketed (key.toList ++ [' ']) (' ' :: value.toList) := by
    rintro ⟨hhead, -⟩
    rw [htrimKey] at hhead
    exact (hword '[' (List.mem_of_head? hhead)).2.2.2.2 rfl
  rw [Sections.readLine_eq, toList_entryLine, lineOf_entry hkeyPlain hvaluePlain hsingle hopen,
    htrimKey, htrimValue, String.ofList_toList, String.ofList_toList]
  rfl

/-- Entries that their lines give back. -/
def AreEntries (entries : List (String × String)) : Prop := ∀ e ∈ entries, IsKey e.1 ∧ IsValue e.2

/-- The lines of entries, read where a section is current that takes them. -/
theorem foldlM_entries {entries : List (String × String)} (h : AreEntries entries)
    (place : Section → Sections)
    (hset : ∀ s key value line, (place s).set key value line = .ok (place (s.set key value line)))
    (s : Section) (start : Nat) :
    (((entries.map entryLine).map String.toList).zipIdx start).foldlM
      (fun s (raw, line) => s.readLine raw line) (place s) =
        (.ok (place ⟨s.entries ++ numbered start entries⟩) : Except WgConfError Sections) := by
  induction entries generalizing s start with
  | nil =>
    have hnone : s.entries ++ numbered start [] = s.entries := List.append_nil _
    rw [hnone]
    rfl
  | cons e entries ih =>
    obtain ⟨key, value⟩ := e
    obtain ⟨hkey, hvalue⟩ := h _ List.mem_cons_self
    simp only [List.map_cons, List.zipIdx_cons, List.foldlM_cons]
    rw [readLine_entry _ hkey hvalue, hset, ok_bind,
      ih (fun e he => h e (List.mem_cons_of_mem _ he))]
    simp [Section.set, numbered]

/-- A line of the rendered text. -/
def IsLine (line : List Char) : Prop := '\n' ∉ line ∧ line.getLast? ≠ some '\r'

theorem isLine_entry {key value : String} (hkey : IsKey key) (hvalue : IsValue value) :
    IsLine (entryLine (key, value)).toList := by
  refine ⟨fun h => ?_, fun h => ?_⟩
  · rw [toList_entryLine] at h
    simp only [List.mem_append, List.mem_cons, List.not_mem_nil, or_false] at h
    rcases h with (h | h) | h | h | h
    · exact absurd (hkey.2 _ h).1 (by decide)
    · exact absurd h (by decide)
    · exact absurd h (by decide)
    · exact absurd h (by decide)
    · exact (hvalue.plain _ h).1 rfl
  · rw [getLast?_entryLine key hvalue.ne] at h
    exact absurd ((ends_of_trimChars hvalue.trimmed).2 _ h) (by decide)

/-- Reading a text of two sections gives the entries of both. -/
theorem read_sections {interface peer : List (String × String)} (hinterface : AreEntries interface)
    (hpeer : AreEntries peer) :
    Sections.read (String.join (("[Interface]" :: interface.map entryLine ++
      "" :: "[Peer]" :: peer.map entryLine).map (· ++ "\n"))) =
        .ok ⟨⟨numbered 2 interface⟩, [⟨numbered (interface.length + 4) peer⟩], some .peer⟩ := by
  have hentries : ∀ entries, AreEntries entries →
      ∀ line ∈ (entries.map entryLine).map String.toList, IsLine line := by
    intro entries h line hline
    obtain ⟨text, htext, rfl⟩ := List.mem_map.mp hline
    obtain ⟨e, he, rfl⟩ := List.mem_map.mp htext
    exact isLine_entry (h e he).1 (h e he).2
  have hlines : linesOf (String.join (("[Interface]" :: interface.map entryLine ++
      "" :: "[Peer]" :: peer.map entryLine).map (· ++ "\n"))).toList =
        "[Interface]".toList :: (interface.map entryLine).map String.toList ++
          "".toList :: "[Peer]".toList :: (peer.map entryLine).map String.toList := by
    have hjoin : ∀ lines : List String, (String.join (lines.map (· ++ "\n"))).toList =
        (lines.map String.toList).flatMap (· ++ ['\n']) := by
      intro lines
      rw [String.toList_join, List.flatMap_map, List.flatMap_map]
      exact List.flatMap_congr fun line _ => String.toList_append
    rw [hjoin, List.map_append, List.map_cons, List.map_cons, List.map_cons]
    refine linesOf_flatMap fun line hline => ?_
    rcases List.mem_append.mp hline with hline | hline
    · rcases List.mem_cons.mp hline with rfl | hline
      · decide
      · exact hentries _ hinterface line hline
    · rcases List.mem_cons.mp hline with rfl | hline
      · decide
      · rcases List.mem_cons.mp hline with rfl | hline
        · decide
        · exact hentries _ hpeer line hline
  have hfirst := foldlM_entries hinterface (fun s => ⟨s, [], some .interface⟩)
    (fun _ _ _ _ => rfl) {} 2
  have hsecond := foldlM_entries hpeer
    (fun s => ⟨⟨numbered 2 interface⟩, [s], some .peer⟩) (fun _ _ _ _ => rfl) {}
    (interface.length + 4)
  have hheader : Sections.readLine {} "[Interface]".toList 1 =
      .ok ⟨{}, [], some .interface⟩ := by decide +kernel
  have hblank : ∀ (s : Sections) line, s.readLine "".toList line = .ok s := fun _ _ => rfl
  have hpeerHeader : ∀ s line, (⟨s, [], some .interface⟩ : Sections).readLine "[Peer]".toList line =
      .ok ⟨s, [{}], some .peer⟩ := by
    intro s line
    have hname : headerName (trimChars (stripComment "[Peer]".toList)) = some "Peer".toList := by
      decide +kernel
    have hlower : toAsciiLowercase (.ofList (trimChars "Peer".toList)) = "peer" := by decide +kernel
    have hne : trimChars (stripComment "[Peer]".toList) ≠ [] := by decide +kernel
    rw [Sections.readLine]
    simp only [hne, if_false, hname, hlower]
    rfl
  have hstart : 1 + (interface.length + 1) + 1 + 1 = interface.length + 4 := by omega
  rw [Sections.read, hlines]
  simp only [List.zipIdx_append, List.foldlM_append, List.zipIdx_cons, List.foldlM_cons, hheader,
    ok_bind, Nat.reduceAdd, hfirst, hblank, List.length_cons, List.length_map]
  rw [hpeerHeader, ok_bind, hstart]
  exact hsecond

/-! ### Values of several items -/

theorem isValue_intercalate {items : List String} (hne : items ≠ [])
    (h : ∀ item ∈ items, IsItem item) : IsValue (", ".intercalate items) := by
  have htext : (", ".intercalate items).toList = [',', ' '].intercalate (items.map String.toList) :=
    String.toList_intercalate
  have hends : ∀ pieces : List (List Char), pieces ≠ [] → (∀ piece ∈ pieces, piece ≠ []) →
      (∃ piece ∈ pieces, ([',', ' '].intercalate pieces).head? = piece.head?) ∧
      (∃ piece ∈ pieces, ([',', ' '].intercalate pieces).getLast? = piece.getLast?) ∧
      ∀ c ∈ [',', ' '].intercalate pieces, c = ',' ∨ c = ' ' ∨ ∃ piece ∈ pieces, c ∈ piece := by
    intro pieces hpieces hfull
    induction pieces with
    | nil => exact absurd rfl hpieces
    | cons piece pieces ih =>
      cases pieces with
      | nil =>
        rw [List.intercalate_singleton]
        exact ⟨⟨piece, List.mem_cons_self, rfl⟩, ⟨piece, List.mem_cons_self, rfl⟩,
          fun c hc => .inr (.inr ⟨piece, List.mem_cons_self, hc⟩)⟩
      | cons next pieces =>
        obtain ⟨-, ⟨last, hlast, heq⟩, hmem⟩ := ih (List.cons_ne_nil _ _)
          fun p hp => hfull p (List.mem_cons_of_mem _ hp)
        have hrest : [',', ' '].intercalate (next :: pieces) ≠ [] := by
          intro hnil
          rw [hnil] at heq
          have hlastne := hfull last (List.mem_cons_of_mem _ hlast)
          exact hlastne (List.getLast?_eq_none_iff.mp heq.symm)
        obtain ⟨c, cs, hcs⟩ := List.exists_cons_of_ne_nil (hfull piece List.mem_cons_self)
        rw [List.intercalate_cons_cons]
        refine ⟨⟨piece, List.mem_cons_self, by rw [hcs]; rfl⟩,
          ⟨last, List.mem_cons_of_mem _ hlast, ?_⟩, fun d hd => ?_⟩
        · rw [List.getLast?_append_of_ne_nil _ hrest, heq]
        · rcases List.mem_append.mp hd with hd | hd
          · rcases List.mem_append.mp hd with hd | hd
            · exact .inr (.inr ⟨piece, List.mem_cons_self, hd⟩)
            · rcases List.mem_cons.mp hd with rfl | hd
              · exact .inl rfl
              · exact .inr (.inl (List.mem_singleton.mp hd))
          · rcases hmem d hd with h | h | ⟨p, hp, hd⟩
            · exact .inl h
            · exact .inr (.inl h)
            · exact .inr (.inr ⟨p, List.mem_cons_of_mem _ hp, hd⟩)
  have hitem : ∀ piece ∈ items.map String.toList, ∃ item ∈ items, piece = item.toList := by
    intro piece hpiece
    obtain ⟨item, hitem, rfl⟩ := List.mem_map.mp hpiece
    exact ⟨item, hitem, rfl⟩
  obtain ⟨⟨first, hfirst, hhead⟩, ⟨last, hlast, hgetLast⟩, hmem⟩ :=
    hends (items.map String.toList) (by simpa using hne) fun piece hpiece => by
      obtain ⟨item, hmem, rfl⟩ := hitem piece hpiece
      exact (h item hmem).ne
  obtain ⟨item, hitemMem, rfl⟩ := hitem first hfirst
  obtain ⟨final, hfinal, rfl⟩ := hitem last hlast
  rw [← htext] at hhead hgetLast hmem
  refine ⟨fun hnil => ?_, trimChars_of_ends (fun c hc => ?_) fun c hc => ?_, fun c hc => ?_⟩
  · rw [hnil] at hhead
    exact (h item hitemMem).ne (List.head?_eq_none_iff.mp hhead.symm)
  · rw [hhead] at hc
    exact (ends_of_trimChars (h item hitemMem).trimmed).1 c hc
  · rw [hgetLast] at hc
    exact (ends_of_trimChars (h final hfinal).trimmed).2 c hc
  · rcases hmem c hc with rfl | rfl | ⟨piece, hpiece, hc⟩
    · decide
    · decide
    · obtain ⟨item, hmem, rfl⟩ := hitem piece hpiece
      exact (h item hmem).plain c hc

theorem intercalate_space (piece : List Char) (pieces : List (List Char)) :
    [',', ' '].intercalate (piece :: pieces) =
      [','].intercalate (piece :: pieces.map (' ' :: ·)) := by
  induction pieces generalizing piece with
  | nil => rw [List.map_nil, List.intercalate_singleton, List.intercalate_singleton]
  | cons next pieces ih =>
    rw [List.map_cons, List.intercalate_cons_cons, List.intercalate_cons_cons, ih]
    cases pieces with
    | nil => simp
    | cons => simp [List.intercalate_cons_cons]

/-- The items of a value are read back, in their order. -/
theorem itemsOf_intercalate {items : List String} (h : ∀ item ∈ items, IsItem item) :
    itemsOf (", ".intercalate items) = items := by
  have htext : (", ".intercalate items).toList = [',', ' '].intercalate (items.map String.toList) :=
    String.toList_intercalate
  rw [itemsOf, htext]
  cases items with
  | nil => rfl
  | cons item items =>
    have hsplit : split ',' ([',', ' '].intercalate ((item :: items).map String.toList)) =
        item.toList :: (items.map String.toList).map (' ' :: ·) := by
      rw [List.map_cons, intercalate_space]
      refine split_intercalate (List.cons_ne_nil _ _) fun piece hpiece => ?_
      rcases List.mem_cons.mp hpiece with rfl | hpiece
      · exact (h item List.mem_cons_self).comma
      · obtain ⟨text, htext, rfl⟩ := List.mem_map.mp hpiece
        obtain ⟨other, hother, rfl⟩ := List.mem_map.mp htext
        intro hcomma
        rcases List.mem_cons.mp hcomma with hcomma | hcomma
        · exact absurd hcomma (by decide)
        · exact (h other (List.mem_cons_of_mem _ hother)).comma hcomma
    have htrim : (split ',' ([',', ' '].intercalate ((item :: items).map String.toList))).map
        trimChars = (item :: items).map String.toList := by
      rw [hsplit, List.map_cons, List.map_cons, (h item List.mem_cons_self).trimmed, List.map_map,
        List.map_map]
      refine congrArg (item.toList :: ·) (List.map_congr_left fun other hother => ?_)
      exact (trimChars_cons (by decide) _).trans (h other (List.mem_cons_of_mem _ hother)).trimmed
    have hfull : ((item :: items).map String.toList).filter (· ≠ []) =
        (item :: items).map String.toList := by
      refine List.filter_eq_self.mpr fun text htext => ?_
      obtain ⟨other, hother, rfl⟩ := List.mem_map.mp htext
      exact decide_eq_true (h other hother).ne
    rw [htrim, hfull, List.map_map]
    exact List.map_id'' (fun _ => String.ofList_toList) _

/-! ### Values as text -/

theorem isItem_of_chars {v : String} (hne : v.toList ≠ [])
    (h : ∀ c ∈ v.toList, c = '/' ∨ c = '[' ∨ c = ']' ∨ c ∈ IpAddr.addressChars) : IsItem v := by
  have hall : ∀ c ∈ v.toList, isWhitespace c = false ∧ c ≠ '#' ∧ c ≠ ';' ∧ c ≠ ',' := by
    intro c hc
    rcases h c hc with rfl | rfl | rfl | hc
    · decide
    · decide
    · decide
    · exact (of_all (by decide) : ∀ c ∈ IpAddr.addressChars,
        isWhitespace c = false ∧ c ≠ '#' ∧ c ≠ ';' ∧ c ≠ ',') c hc
  exact {
    isValue_of_not_whitespace hne fun c hc => ⟨(hall c hc).1, (hall c hc).2.1, (hall c hc).2.2.1⟩
    with comma := fun hc => (hall _ hc).2.2.2 rfl }

theorem isItem_ipAddr (ip : IpAddr) : IsItem ip.display := by
  refine isItem_of_chars (fun hnil => ?_) fun c hc => .inr (.inr (.inr (IpAddr.mem_display hc)))
  have hempty : IpAddr.parseChars [] = none := by decide
  have hparse := IpAddr.parse_display ip
  rw [IpAddr.parse, hnil, hempty] at hparse
  cases hparse

theorem isItem_cidr (c : Cidr) : IsItem c.display := by
  refine isItem_of_chars (fun hnil => ?_) fun d hd => ?_
  · rw [Cidr.toList_display] at hnil
    exact absurd hnil (List.append_ne_nil_of_right_ne_nil _ (List.cons_ne_nil _ _))
  · rcases Cidr.mem_display hd with rfl | hd
    · exact .inl rfl
    · exact .inr (.inr (.inr hd))

theorem isValue_socketAddr (a : SocketAddr) : IsValue a.display := by
  refine (isItem_of_chars (fun hnil => ?_) fun c hc => .inr (SocketAddr.mem_display hc)).toIsValue
  rw [SocketAddr.display] at hnil
  split at hnil <;> simp at hnil

theorem isValue_nat (n : Nat) : IsValue (toString n) := by
  have htext : (toString n).toList = Nat.toDigits 10 n := Nat.toList_repr
  refine (isItem_of_chars (fun hnil => ?_) fun c hc => ?_).toIsValue
  · exact Nat.toDigits_ne_nil (htext.symm.trans hnil)
  · exact .inr (.inr (.inr (IpAddr.mem_decimal (htext ▸ hc))))

theorem isValue_key (bytes : Vector UInt8 32) : IsValue (encodeKey bytes) := by
  have hall : ∀ n < 64, Base64.charOf n ≠ '#' ∧ Base64.charOf n ≠ ';' := by decide +kernel
  refine isValue_of_not_whitespace (fun hnil => ?_) fun c hc =>
    ⟨isWhitespace_of_mem_encodeKey hc, ?_⟩
  · have hdecode := decodeKey_encodeKey bytes
    rw [decodeKey, hnil] at hdecode
    cases hdecode
  · rw [encodeKey, String.toList_ofList] at hc
    rcases Base64.mem_encode hc with rfl | ⟨n, hn, rfl⟩
    · decide
    · exact hall n hn

/-! ### Reading the entries back -/

/-- The values of a key, in their order. -/
def valuesOf (key : String) (entries : List (String × String)) : List String :=
  (entries.filter (toAsciiLowercase ·.1 == key)).map (·.2)

theorem getAll_numbered (key : String) (start : Nat) (entries : List (String × String)) :
    ((⟨numbered start entries⟩ : Section).getAll key).map (·.1) = valuesOf key entries := by
  induction entries generalizing start with
  | nil => rfl
  | cons e entries ih =>
    have htail := ih (start + 1)
    simp only [Section.getAll, numbered, valuesOf, List.zipIdx_cons, List.map_cons,
      List.filter_cons] at htail ⊢
    by_cases hkey : (toAsciiLowercase e.1 == key) = true
    · rw [if_pos hkey, if_pos hkey, List.map_cons, List.map_cons, htail, List.map_cons]
    · rw [if_neg hkey, if_neg hkey, htail]

theorem get_numbered (key : String) (start : Nat) (entries : List (String × String)) :
    ((⟨numbered start entries⟩ : Section).get key).map (·.1) = (valuesOf key entries).head? := by
  rw [Section.get_eq, ← getAll_numbered key start, List.head?_map]

theorem itemsOf_numbered (key : String) (start : Nat) (entries : List (String × String)) :
    ((⟨numbered start entries⟩ : Section).itemsOf key).map (·.1) =
      (valuesOf key entries).flatMap itemsOf := by
  rw [← getAll_numbered key start, Section.itemsOf, List.map_flatMap, List.flatMap_map]
  refine List.flatMap_congr fun e _ => ?_
  rw [List.map_map]
  exact List.map_id'' (fun _ => rfl) _

theorem requiredKey_ok {α : Type} {fromBase64 : String → Except KeyError α} {s : Section}
    {key raw : String} {k : α} (hget : (s.get key).map (·.1) = some raw)
    (hkey : fromBase64 raw = .ok k) (display : String) (missing : WgConfError) :
    requiredKey fromBase64 s key display missing = .ok k := by
  obtain ⟨⟨_, line⟩, hfound, rfl⟩ := Option.map_eq_some_iff.mp hget
  rw [requiredKey, hfound]
  exact mapError_ok.mpr hkey

theorem optionalKey_ok {α : Type} {fromBase64 : String → Except KeyError α} {s : Section}
    {key : String} {k : Option α} {text : α → String} (hget : (s.get key).map (·.1) = k.map text)
    (hkey : ∀ k, fromBase64 (text k) = .ok k) (display : String) :
    optionalKey fromBase64 s key display = .ok k := by
  cases k with
  | none =>
    rw [optionalKey, Option.map_eq_none_iff.mp hget]
  | some k =>
    obtain ⟨⟨raw, line⟩, hfound, hraw⟩ := Option.map_eq_some_iff.mp hget
    obtain rfl : raw = text k := hraw
    rw [optionalKey, hfound]
    exact map_ok.mpr ⟨k, mapError_ok.mpr (hkey k), rfl⟩

theorem parseScalar_ok {bits : Nat} {s : Section} {key : String} {n : Option Nat}
    (hget : (s.get key).map (·.1) = n.map toString) (hn : ∀ m, n = some m → m < 2 ^ bits)
    (display : String) : parseScalar bits s key display = .ok n := by
  cases n with
  | none => rw [parseScalar, Option.map_eq_none_iff.mp hget]
  | some n =>
    obtain ⟨⟨value, line⟩, hfound, hvalue⟩ := Option.map_eq_some_iff.mp hget
    have htext : value.toList = Nat.toDigits 10 n := by
      rw [show value = toString n from hvalue]
      exact Nat.toList_repr
    rw [parseScalar, hfound]
    refine map_ok.mpr ⟨n, mapError_ok.mpr ?_, rfl⟩
    rw [htext]
    exact parseUnsigned_toDigits (hn n rfl)

theorem parseList_ok {s : Section} {key : String} {cidrs : List Cidr}
    (hitems : (s.itemsOf key).map (·.1) = cidrs.map Cidr.display) (display : String) :
    parseList s key display = .ok cidrs := by
  rw [parseList]
  generalize s.itemsOf key = items at hitems
  induction items generalizing cidrs with
  | nil =>
    rw [List.map_eq_nil_iff.mp hitems.symm]
    rfl
  | cons item items ih =>
    obtain ⟨c, cs, rfl⟩ := List.exists_cons_of_ne_nil (l := cidrs) (by rintro rfl; cases hitems)
    obtain ⟨hitem, hrest⟩ := List.cons.inj hitems
    have hparse : Cidr.fromStr c.display = .ok c := by
      have hsome := (Cidr.fromStr_toOption c.display).trans (Cidr.parse_display c)
      cases hresult : Cidr.fromStr c.display with
      | error e => rw [hresult] at hsome; cases hsome
      | ok c' => rw [hresult] at hsome; cases hsome; rfl
    obtain ⟨text, line⟩ := item
    obtain rfl : text = c.display := hitem
    rw [List.mapM_cons]
    exact bind_ok.mpr ⟨c, mapError_ok.mpr hparse, bind_ok.mpr ⟨cs, ih hrest, rfl⟩⟩

/-! ### The credentials -/

/-- What every client of the import has that its text gives back. -/
structure ClientConfig.Renders (client : ClientConfig) : Prop extends client.Complete where
  allowedIps : client.allowedIps ≠ []
  searchDomains : ∀ domain ∈ client.searchDomains, IsItem domain ∧ IpAddr.parse domain = none

/-- The values of the lines carry neither line breaks nor comments. -/
def Section.Plain (s : Section) : Prop :=
  ∀ e ∈ s.entries, ∀ c ∈ e.value.toList, c ≠ '\n' ∧ c ≠ '#' ∧ c ≠ ';'

theorem Section.Plain.set {s : Section} (hs : s.Plain) {value : List Char}
    (h : ∀ c ∈ value, c ≠ '\n' ∧ c ≠ '#' ∧ c ≠ ';') (key : String) (line : Nat) :
    (s.set key (.ofList (trimChars value)) line).Plain := by
  intro e he
  rcases List.mem_append.mp he with he | he
  · exact hs e he
  · obtain rfl := List.mem_singleton.mp he
    intro c hc
    rw [String.toList_ofList] at hc
    exact h c (mem_trimChars hc)

theorem Sections.readLine_plain {s s' : Sections} (hs : s.interface.Plain) {raw : List Char}
    (hraw : '\n' ∉ raw) {line : Nat} (h : s.readLine raw line = .ok s') : s'.interface.Plain := by
  have hchars : ∀ c ∈ trimChars (stripComment raw), c ≠ '\n' ∧ c ≠ '#' ∧ c ≠ ';' := by
    intro c hc
    have hc := mem_trimChars hc
    refine ⟨?_, by simpa using List.mem_takeWhile_imp hc⟩
    rintro rfl
    exact hraw ((List.takeWhile_sublist _).subset hc)
  rw [readLine] at h
  simp only at h
  split at h
  · cases h
    exact hs
  · split at h
    · split_ifs at h
      · cases h
        exact hs
      · cases h
        exact hs
    · split at h
      · cases h
      · next key value hsplit =>
        have htext := splitOnce_eq_some hsplit
        have hvalue : ∀ c ∈ value, c ≠ '\n' ∧ c ≠ '#' ∧ c ≠ ';' := fun c hc =>
          hchars c (by rw [htext]; exact List.mem_append_right _ (List.mem_cons_of_mem _ hc))
        rw [set] at h
        split at h
        · cases h
          exact hs.set hvalue _ _
        · cases h
          exact hs
        · cases h

theorem Sections.read_plain {text : String} {s : Sections} (h : read text = .ok s) :
    s.interface.Plain := by
  have hrun : ∀ (lines : List (List Char × Nat)) (s s' : Sections), s.interface.Plain →
      (∀ line ∈ lines, '\n' ∉ line.1) →
      lines.foldlM (fun s (raw, line) => s.readLine raw line) s = .ok s' → s'.interface.Plain := by
    intro lines
    induction lines with
    | nil =>
      intro s s' hs _ h
      cases h
      exact hs
    | cons line lines ih =>
      intro s s' hs hlines h
      rw [List.foldlM_cons] at h
      obtain ⟨t, ht, h⟩ := bind_ok.mp h
      exact ih t s' (readLine_plain hs (hlines line List.mem_cons_self) ht)
        (fun l hl => hlines l (List.mem_cons_of_mem _ hl)) h
  have hempty : ({} : Section).Plain := fun e he => absurd he List.not_mem_nil
  refine hrun _ _ _ hempty (fun line hline => ?_) h
  exact not_mem_of_mem_linesOf (List.fst_mem_of_mem_zipIdx hline)

/-- The items of a plain value can be rendered. -/
theorem Section.Plain.isItem {s : Section} (hs : s.Plain) {key item : String} {line : Nat}
    (h : (item, line) ∈ s.itemsOf key) : IsItem item := by
  obtain ⟨⟨value, at_⟩, hvalue, hitem⟩ := List.mem_flatMap.mp h
  obtain ⟨e, he, heq⟩ := List.mem_map.mp hvalue
  cases heq
  obtain ⟨text, htext, heq⟩ := List.mem_map.mp hitem
  cases heq
  obtain ⟨cs, hcs, rfl⟩ := List.mem_map.mp htext
  obtain ⟨hpiece, hne⟩ := List.mem_filter.mp hcs
  obtain ⟨piece, hsplit, rfl⟩ := List.mem_map.mp hpiece
  have hplain := hs e (List.mem_of_mem_filter he)
  refine ⟨⟨?_, ?_, fun c hc => ?_⟩, ?_⟩
  · rw [String.toList_ofList]
    exact of_decide_eq_true hne
  · rw [String.toList_ofList, trimChars_trimChars]
  · rw [String.toList_ofList] at hc
    exact hplain c (mem_of_mem_split hsplit (mem_trimChars hc))
  · rw [String.toList_ofList]
    exact fun hc => not_mem_of_mem_split hsplit (mem_trimChars hc)

theorem ClientConfig.parse_renders {text : String} {client : ClientConfig}
    (h : parse text = .ok client) : client.Renders := by
  obtain ⟨s, hread, hclient⟩ := bind_ok.mp h
  simp only [Sections.client, bind_ok] at hclient
  obtain ⟨peer, -, privateKey, -, peerPublicKey, -, presharedKey, -, addresses, -, hclient⟩ :=
    hclient
  split at hclient
  · cases hclient
  · simp only [bind_ok] at hclient
    obtain ⟨allowedIps, -, mtu, -, keepalive, -, hclient⟩ := hclient
    cases hclient
    refine { parse_complete h with allowedIps := ?_, searchDomains := fun domain hdomain => ?_ }
    · dsimp only
      split
      · exact List.cons_ne_nil _ _
      · assumption
    · obtain ⟨hname, hparse⟩ := List.mem_filter.mp hdomain
      obtain ⟨item, hitem, rfl⟩ := List.mem_map.mp hname
      exact ⟨(Sections.read_plain hread).isItem hitem, of_decide_eq_true hparse⟩

/-- The nameservers and search domains, as they stand in one value. -/
def ClientConfig.dnsNames (client : ClientConfig) : List String :=
  client.dns.map IpAddr.display ++ client.searchDomains

theorem ClientConfig.Renders.isItem_dnsNames {client : ClientConfig} (h : client.Renders) :
    ∀ name ∈ client.dnsNames, IsItem name := by
  intro name hname
  rcases List.mem_append.mp hname with hname | hname
  · obtain ⟨ip, -, rfl⟩ := List.mem_map.mp hname
    exact isItem_ipAddr ip
  · exact (h.searchDomains name hname).1

theorem isValue_cidrs {cidrs : List Cidr} (h : cidrs ≠ []) :
    IsValue (", ".intercalate (cidrs.map Cidr.display)) := by
  refine isValue_intercalate (fun hnil => h (List.map_eq_nil_iff.mp hnil)) fun item hitem => ?_
  obtain ⟨c, -, rfl⟩ := List.mem_map.mp hitem
  exact isItem_cidr c

theorem ClientConfig.Renders.interfaceEntries {client : ClientConfig} (h : client.Renders) :
    AreEntries client.interfaceEntries := by
  intro e he
  simp only [ClientConfig.interfaceEntries, List.mem_append, List.mem_cons, List.not_mem_nil,
    or_false, Option.mem_toList, Option.map_eq_some_iff] at he
  rcases he with ((rfl | rfl) | he) | ⟨n, -, rfl⟩
  · exact ⟨(by decide : IsKey "Address"), isValue_cidrs h.addresses⟩
  · exact ⟨(by decide : IsKey "PrivateKey"), isValue_key _⟩
  · split at he
    · cases he
    · next hne =>
      obtain rfl := List.mem_singleton.mp he
      exact ⟨(by decide : IsKey "DNS"), isValue_intercalate hne h.isItem_dnsNames⟩
  · exact ⟨(by decide : IsKey "MTU"), isValue_nat n⟩

theorem ClientConfig.Renders.peerEntries {client : ClientConfig} (h : client.Renders)
    (endpoint : SocketAddr) : AreEntries (client.peerEntries endpoint) := by
  intro e he
  simp only [ClientConfig.peerEntries, List.mem_append, List.mem_cons, List.not_mem_nil,
    or_false, Option.mem_toList, Option.map_eq_some_iff] at he
  rcases he with ((rfl | ⟨psk, -, rfl⟩) | rfl | rfl) | ⟨n, -, rfl⟩
  · exact ⟨(by decide : IsKey "PublicKey"), isValue_key _⟩
  · exact ⟨(by decide : IsKey "PresharedKey"), isValue_key _⟩
  · exact ⟨(by decide : IsKey "Endpoint"), isValue_socketAddr endpoint⟩
  · exact ⟨(by decide : IsKey "AllowedIPs"), isValue_cidrs h.allowedIps⟩
  · exact ⟨(by decide : IsKey "PersistentKeepalive"), isValue_nat n⟩

@[simp] theorem valuesOf_nil (key : String) : valuesOf key [] = [] := rfl

@[simp] theorem valuesOf_append (key : String) (es es' : List (String × String)) :
    valuesOf key (es ++ es') = valuesOf key es ++ valuesOf key es' := by
  rw [valuesOf, List.filter_append, List.map_append]
  rfl

@[simp] theorem valuesOf_cons (key : String) (e : String × String) (es : List (String × String)) :
    valuesOf key (e :: es) =
      (if toAsciiLowercase e.1 = key then [e.2] else []) ++ valuesOf key es := by
  rw [valuesOf, List.filter_cons]
  by_cases hkey : toAsciiLowercase e.1 = key
  · rw [if_pos hkey, if_pos (beq_iff_eq.mpr hkey)]
    rfl
  · rw [if_neg hkey, if_neg (fun h => hkey (beq_iff_eq.mp h))]
    rfl

/-- The values under `[Interface]`. -/
theorem valuesOf_interfaceEntries (client : ClientConfig) (key : String) :
    valuesOf key client.interfaceEntries =
      (if "address" = key then [", ".intercalate (client.addresses.map Cidr.display)] else []) ++
      (if "privatekey" = key then [client.privateKey.exposeBase64] else []) ++
      (if client.dnsNames = [] then []
        else if "dns" = key then [", ".intercalate client.dnsNames] else []) ++
      if "mtu" = key then (client.mtu.map toString).toList else [] := by
  have hlower : toAsciiLowercase "Address" = "address" ∧
      toAsciiLowercase "PrivateKey" = "privatekey" ∧ toAsciiLowercase "DNS" = "dns" ∧
      toAsciiLowercase "MTU" = "mtu" := by decide +kernel
  obtain ⟨haddress, hprivateKey, hdns, hmtu⟩ := hlower
  have hscalar : valuesOf key (client.mtu.map fun mtu => ("MTU", toString mtu)).toList =
      if "mtu" = key then (client.mtu.map toString).toList else [] := by
    cases client.mtu <;> simp [hmtu]
  have hnames : valuesOf key (if client.dnsNames = [] then []
      else [("DNS", ", ".intercalate client.dnsNames)]) = if client.dnsNames = [] then []
        else if "dns" = key then [", ".intercalate client.dnsNames] else [] := by
    split <;> simp [hdns]
  rw [ClientConfig.interfaceEntries]
  simp only [valuesOf_append, hscalar]
  rw [← ClientConfig.dnsNames, hnames]
  simp [haddress, hprivateKey]

/-- The values under `[Peer]`. -/
theorem valuesOf_peerEntries (client : ClientConfig) (endpoint : SocketAddr) (key : String) :
    valuesOf key (client.peerEntries endpoint) =
      (if "publickey" = key then [client.peerPublicKey.toBase64] else []) ++
      (if "presharedkey" = key then (client.presharedKey.map (·.exposeBase64)).toList else []) ++
      (if "endpoint" = key then [endpoint.display] else []) ++
      (if "allowedips" = key then [", ".intercalate (client.allowedIps.map Cidr.display)]
        else []) ++
      if "persistentkeepalive" = key then (client.persistentKeepalive.map toString).toList
        else [] := by
  have hlower : toAsciiLowercase "PublicKey" = "publickey" ∧
      toAsciiLowercase "PresharedKey" = "presharedkey" ∧
      toAsciiLowercase "Endpoint" = "endpoint" ∧ toAsciiLowercase "AllowedIPs" = "allowedips" ∧
      toAsciiLowercase "PersistentKeepalive" = "persistentkeepalive" := by decide +kernel
  obtain ⟨hpublicKey, hpresharedKey, hendpoint, hallowedIps, hkeepalive⟩ := hlower
  have hpsk : valuesOf key
      (client.presharedKey.map fun psk => ("PresharedKey", psk.exposeBase64)).toList =
        if "presharedkey" = key then (client.presharedKey.map (·.exposeBase64)).toList else [] := by
    cases client.presharedKey <;> simp [hpresharedKey]
  have hscalar : valuesOf key
      (client.persistentKeepalive.map fun k => ("PersistentKeepalive", toString k)).toList =
        if "persistentkeepalive" = key then (client.persistentKeepalive.map toString).toList
          else [] := by
    cases client.persistentKeepalive <;> simp [hkeepalive]
  rw [ClientConfig.peerEntries]
  simp only [valuesOf_append, hpsk, hscalar]
  simp [hpublicKey, hendpoint, hallowedIps]

theorem itemsOf_cidrs (cidrs : List Cidr) :
    itemsOf (", ".intercalate (cidrs.map Cidr.display)) = cidrs.map Cidr.display := by
  refine itemsOf_intercalate fun item hitem => ?_
  obtain ⟨c, -, rfl⟩ := List.mem_map.mp hitem
  exact isItem_cidr c

/-- The nameservers and the search domains are told apart again. -/
theorem ClientConfig.Renders.names_apart {client : ClientConfig} (h : client.Renders) :
    client.dnsNames.filterMap IpAddr.parse = client.dns ∧
      client.dnsNames.filter (fun name => IpAddr.parse name = none) = client.searchDomains := by
  have hdns : (client.dns.map IpAddr.display).filterMap IpAddr.parse = client.dns := by
    rw [List.filterMap_map]
    exact (List.filterMap_congr fun ip _ => IpAddr.parse_display ip).trans List.filterMap_some
  have hdomains : client.searchDomains.filterMap IpAddr.parse = [] :=
    List.filterMap_eq_nil_iff.mpr fun domain hdomain => (h.searchDomains domain hdomain).2
  have hips : (client.dns.map IpAddr.display).filter (fun name => IpAddr.parse name = none) = [] := by
    refine List.filter_eq_nil_iff.mpr fun name hname => ?_
    obtain ⟨ip, -, rfl⟩ := List.mem_map.mp hname
    simp [IpAddr.parse_display]
  have hrest : client.searchDomains.filter (fun name => IpAddr.parse name = none) =
      client.searchDomains :=
    List.filter_eq_self.mpr fun domain hdomain => decide_eq_true (h.searchDomains domain hdomain).2
  rw [dnsNames, List.filterMap_append, List.filter_append, hdns, hdomains, hips, hrest,
    List.append_nil, List.nil_append]
  exact ⟨rfl, rfl⟩

/-- A text rendered from credentials of the import is read as those credentials. -/
theorem ClientConfig.Renders.parse_toConf {client : ClientConfig} (h : client.Renders)
    (endpoint : SocketAddr) : ClientConfig.parse (toConf client endpoint) = .ok client := by
  have hread : Sections.read (toConf client endpoint) = _ :=
    read_sections h.interfaceEntries (h.peerEntries endpoint)
  obtain ⟨start, hinterface⟩ : ∃ n, n = 2 := ⟨2, rfl⟩
  obtain ⟨line, hpeer⟩ : ∃ n, n = client.interfaceEntries.length + 4 := ⟨_, rfl⟩
  rw [← hinterface, ← hpeer] at hread
  have hprivateKey := requiredKey_ok
    ((get_numbered "privatekey" start client.interfaceEntries).trans
      (by simp [valuesOf_interfaceEntries]))
    client.privateKey.fromBase64_exposeBase64 "PrivateKey" .noPrivateKey
  have hpublicKey := requiredKey_ok
    ((get_numbered "publickey" line (client.peerEntries endpoint)).trans
      (by simp [valuesOf_peerEntries]))
    client.peerPublicKey.fromBase64_toBase64 "PublicKey" .noPublicKey
  have hpresharedKey := optionalKey_ok (k := client.presharedKey)
    ((get_numbered "presharedkey" line (client.peerEntries endpoint)).trans
      (by simp [valuesOf_peerEntries]))
    SecretKey.fromBase64_exposeBase64 "PresharedKey"
  have haddresses : parseList _ "address" "Address" = .ok client.addresses := parseList_ok
    ((itemsOf_numbered "address" start client.interfaceEntries).trans
      (by simp [valuesOf_interfaceEntries, itemsOf_cidrs])) _
  have hallowedIps : parseList _ "allowedips" "AllowedIPs" = .ok client.allowedIps := parseList_ok
    ((itemsOf_numbered "allowedips" line (client.peerEntries endpoint)).trans
      (by simp [valuesOf_peerEntries, itemsOf_cidrs])) _
  have hnames : ((⟨numbered start client.interfaceEntries⟩ : Section).itemsOf "dns").map (·.1) =
      client.dnsNames := by
    rw [itemsOf_numbered, valuesOf_interfaceEntries]
    by_cases hnil : client.dnsNames = []
    · simp [hnil]
    · simp [hnil, itemsOf_intercalate h.isItem_dnsNames]
  have hmtu := parseScalar_ok (n := client.mtu)
    ((get_numbered "mtu" start client.interfaceEntries).trans
      (by simp [valuesOf_interfaceEntries])) h.mtu "MTU"
  have hkeepalive := parseScalar_ok (n := client.persistentKeepalive)
    ((get_numbered "persistentkeepalive" line (client.peerEntries endpoint)).trans
      (by simp [valuesOf_peerEntries])) h.persistentKeepalive "PersistentKeepalive"
  have hsections : (⟨⟨numbered start client.interfaceEntries⟩,
      [⟨numbered line (client.peerEntries endpoint)⟩], some .peer⟩ : Sections).client =
        .ok client := by
    rw [Sections.client]
    simp only [Sections.peer, ok_bind, hprivateKey, hpublicKey, hpresharedKey, haddresses,
      if_neg h.addresses, hallowedIps, if_neg h.allowedIps, hmtu, hkeepalive, hnames,
      h.names_apart.1, h.names_apart.2]
    rfl
  rw [ClientConfig.parse, hread]
  exact hsections

/-- The rendered text is one text around the endpoint. -/
theorem toConf_eq (client : ClientConfig) : ∃ front back : String, ∀ endpoint : SocketAddr,
    toConf client endpoint = front ++ endpoint.display ++ back := by
  have happend : ∀ ls ls' : List String, String.join (ls ++ ls') = String.join ls ++ String.join ls' :=
    fun ls ls' => String.toList_inj.mp (by simp)
  let lines := "[Interface]" :: client.interfaceEntries.map entryLine ++ ["", "[Peer]"] ++
    (("PublicKey", client.peerPublicKey.toBase64) ::
      (client.presharedKey.map fun psk => ("PresharedKey", psk.exposeBase64)).toList).map entryLine
  let lines' := (("AllowedIPs", ", ".intercalate (client.allowedIps.map Cidr.display)) ::
    (client.persistentKeepalive.map fun k => ("PersistentKeepalive", toString k)).toList).map
      entryLine
  refine ⟨String.join (lines.map (· ++ "\n")) ++ ("Endpoint" ++ " = "),
    "\n" ++ String.join (lines'.map (· ++ "\n")), fun endpoint => ?_⟩
  have hlines : "[Interface]" :: client.interfaceEntries.map entryLine ++
      "" :: "[Peer]" :: (client.peerEntries endpoint).map entryLine =
        lines ++ entryLine ("Endpoint", endpoint.display) :: lines' := by
    simp [lines, lines', ClientConfig.peerEntries]
  rw [toConf]
  simp only [hlines, List.map_append, List.map_cons, happend, String.join_cons, entryLine]
  simp only [String.append_assoc]

/-- Rendering what an import gave and importing it again gives the same credentials, whatever the
endpoint, and only the endpoint's own text depends on it. -/
theorem parse_toConf_of_parse (text : String) (client : ClientConfig)
    (h : ClientConfig.parse text = .ok client) :
    (∀ endpoint : SocketAddr, ClientConfig.parse (toConf client endpoint) = .ok client) ∧
    ∃ front back : String, ∀ endpoint : SocketAddr,
      toConf client endpoint = front ++ endpoint.display ++ back :=
  ⟨(ClientConfig.parse_renders h).parse_toConf, toConf_eq client⟩

namespace Sample

theorem split_rendered : ClientConfig.parse
    (toConf (splitClient none) ⟨.v4 0xc6336409, 51820⟩) = .ok (splitClient none) :=
  (parse_toConf_of_parse (splitConf "") (splitClient none) split_parses.1).1 _

end Sample

end Vpnmgr
