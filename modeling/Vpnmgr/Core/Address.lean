import Vpnmgr.Core.Net
import Mathlib.Data.List.Infix
import Mathlib.Data.List.TakeWhile

/-! How addresses and prefixes are displayed, and that reading what is displayed gives them back. -/

namespace Vpnmgr

open Text

/-- The octets of an address and a dot between them. -/
def IpAddr.displayV4 (a : BitVec 32) : String :=
  ".".intercalate ([24, 16, 8, 0].map fun i => toString (a.extractLsb' i 8).toNat)

def hexText (n : Nat) : String := String.ofList (Nat.toDigits 16 n)

/-- The longest run of zero groups, the first of those as long: where it starts and its length. -/
def IpAddr.longestZeros (gs : List Nat) : Nat × Nat :=
  (gs.tails.zipIdx.map fun t => (t.2, (t.1.takeWhile (· = 0)).length)).foldl
    (fun best run => if best.2 < run.2 then run else best) (0, 0)

/-- `Display` of an address: IPv6 with its longest row of zero groups written `::`. -/
def IpAddr.display : IpAddr → String
  | .v4 a => displayV4 a
  | .v6 a =>
    let gs := (List.range 8).map fun i => (a.extractLsb' (112 - 16 * i) 16).toNat
    let join (l : List Nat) := ":".intercalate (l.map hexText)
    if gs.take 6 = [0, 0, 0, 0, 0, 0xffff] then "::ffff:" ++ displayV4 (a.extractLsb' 0 32)
    else
      let (start, len) := longestZeros gs
      if 1 < len then join (gs.take start) ++ "::" ++ join (gs.drop (start + len)) else join gs

/-- `Display` of an address and a port. -/
def SocketAddr.display (a : SocketAddr) : String :=
  match a.ip with
  | .v4 _ => a.ip.display ++ ":" ++ toString a.port.toNat
  | .v6 _ => "[" ++ a.ip.display ++ "]:" ++ toString a.port.toNat

/-- `Display` of a prefix. -/
def Cidr.display (c : Cidr) : String := c.addr.display ++ "/" ++ toString c.prefixLen

namespace IpAddr

/-! ### IPv4 -/

theorem decimalDigits_toDigits (n : Nat) : decimalDigits (Nat.toDigits 10 n) = some n := by
  have hdigits : (Nat.toDigits 10 n).all Char.isDigit = true :=
    List.all_eq_true.mpr fun c hc => Nat.isDigit_of_mem_toDigits (by decide) (by decide) hc
  rw [decimalDigits, if_pos ⟨Nat.toDigits_ne_nil, hdigits⟩, Option.some.injEq]
  exact Nat.ofDigitChars_ten_toDigits

theorem octet_toDigits (b : BitVec 8) : octet (Nat.toDigits 10 b.toNat) = some b := by
  have hall : ∀ n < 256, octet (Nat.toDigits 10 n) = some (BitVec.ofNat 8 n) := by decide +kernel
  rw [hall _ b.isLt, BitVec.ofNat_toNat, BitVec.setWidth_eq]

theorem toList_displayV4 (a : BitVec 32) : (displayV4 a).toList =
    ['.'].intercalate ([24, 16, 8, 0].map fun i => Nat.toDigits 10 (a.extractLsb' i 8).toNat) := by
  rw [displayV4, String.toList_intercalate, List.map_map]
  refine congrArg₂ List.intercalate rfl (List.map_congr_left fun i _ => ?_)
  exact Nat.toList_repr

theorem dot_not_mem_toDigits (n : Nat) : '.' ∉ Nat.toDigits 10 n := fun h =>
  absurd (Nat.isDigit_of_mem_toDigits (by decide) (by decide) h) (by decide)

theorem parseV4_display (a : BitVec 32) : parseV4 (displayV4 a).toList = some a := by
  rw [toList_displayV4, parseV4, split_intercalate]
  · simp only [List.map_cons, List.map_nil, octet_toDigits, Option.some.injEq]
    rw [BitVec.extractLsb'_append_extractLsb'_eq_extractLsb',
      BitVec.extractLsb'_append_extractLsb'_eq_extractLsb',
      BitVec.extractLsb'_append_extractLsb'_eq_extractLsb']
    · exact BitVec.extractLsb'_eq_self
    all_goals rfl
  · exact List.cons_ne_nil _ _
  · intro piece hpiece
    obtain ⟨i, _, rfl⟩ := List.mem_map.mp hpiece
    exact dot_not_mem_toDigits _

/-! ### IPv6 -/

/-- The digits of a number in base 16, and that they make up the number. -/
theorem exists_toDigits (n : Nat) : ∃ ds : List Nat, (∀ d ∈ ds, d < 16) ∧
    Nat.toDigits 16 n = ds.map Nat.digitChar ∧ ds.foldl (fun n d => 16 * n + d) 0 = n := by
  induction n using Nat.strongRecOn with
  | ind n ih =>
    by_cases hn : n < 16
    · refine ⟨[n], by simpa using hn, ?_, by simp⟩
      rw [Nat.toDigits_of_lt_base hn]
      rfl
    · obtain ⟨ds, hlt, hds, hvalue⟩ := ih (n / 16) (by omega)
      refine ⟨ds ++ [n % 16], ?_, ?_, ?_⟩
      · intro d hd
        rcases List.mem_append.mp hd with hd | hd
        · exact hlt d hd
        · rw [List.mem_singleton.mp hd]
          omega
      · rw [Nat.toDigits_of_base_le (by decide) (by omega), hds, List.map_append]
        rfl
      · rw [List.foldl_append, hvalue]
        simp only [List.foldl_cons, List.foldl_nil]
        omega

theorem mapM_hexDigit {ds : List Nat} (hlt : ∀ d ∈ ds, d < 16) :
    (ds.map Nat.digitChar).mapM hexDigit = some ds := by
  have hdigit : ∀ d < 16, hexDigit (Nat.digitChar d) = some d := by decide
  induction ds with
  | nil => rfl
  | cons d ds ih =>
    rw [List.map_cons, List.mapM_cons, hdigit d (hlt d List.mem_cons_self),
      ih fun e he => hlt e (List.mem_cons_of_mem _ he)]
    rfl

theorem hexGroup_toDigits (g : BitVec 16) : hexGroup (Nat.toDigits 16 g.toNat) = some g := by
  obtain ⟨ds, hlt, hds, hvalue⟩ := exists_toDigits g.toNat
  have hlength : (Nat.toDigits 16 g.toNat).length ≤ 4 :=
    (Nat.length_toDigits_le_iff (by decide) (by decide)).mpr g.isLt
  have hshort : ¬(Nat.toDigits 16 g.toNat = [] ∨ 4 < (Nat.toDigits 16 g.toNat).length) := by
    rw [not_or]
    exact ⟨Nat.toDigits_ne_nil, by omega⟩
  rw [hexGroup, if_neg hshort, hds, mapM_hexDigit hlt, Option.map_some, hvalue,
    BitVec.ofNat_toNat, BitVec.setWidth_eq]

/-- What stands in the text of an address: neither a slash nor a space. -/
def IsPlain (c : Char) : Prop := c ≠ '/' ∧ isWhitespace c = false

instance : DecidablePred IsPlain := fun _ => inferInstanceAs (Decidable (_ ∧ _))

/-- The characters of an address. -/
def addressChars : List Char :=
  ['0', '1', '2', '3', '4', '5', '6', '7', '8', '9', 'a', 'b', 'c', 'd', 'e', 'f', ':', '.']

theorem isPlain_of_mem {c : Char} (h : c ∈ addressChars) : IsPlain c :=
  (of_all (by decide) : ∀ c ∈ addressChars, IsPlain c) c h

theorem mem_toDigits {n : Nat} {c : Char} (h : c ∈ Nat.toDigits 16 n) :
    c ∈ addressChars ∧ c ≠ ':' ∧ c ≠ '.' := by
  have hdigit : ∀ d < 16, Nat.digitChar d ∈ addressChars ∧ Nat.digitChar d ≠ ':' ∧
      Nat.digitChar d ≠ '.' := by decide
  obtain ⟨ds, hlt, hds, _⟩ := exists_toDigits n
  rw [hds] at h
  obtain ⟨d, hd, rfl⟩ := List.mem_map.mp h
  exact hdigit d (hlt d hd)

/-- The eight groups of an address. -/
def groupList (a : BitVec 128) : List (BitVec 16) :=
  (List.range 8).map fun i => a.extractLsb' (112 - 16 * i) 16

theorem ofGroups_groupList (a : BitVec 128) : ofGroups (groupList a) = a := by
  have step (k : Nat) : 65536 * (a.toNat / 2 ^ (k + 16)) + a.toNat / 2 ^ k % 65536 =
      a.toNat / 2 ^ k := by
    rw [Nat.pow_add, ← Nat.div_div_eq_div_mul]
    exact Nat.div_add_mod _ _
  have hfirst : 65536 * 0 + a.toNat / 2 ^ 112 % 65536 = a.toNat / 2 ^ 112 := by
    have ha := a.isLt
    omega
  apply BitVec.eq_of_toNat_eq
  simp only [ofGroups, groupList, List.range, List.range.loop, List.map_cons, List.map_nil,
    List.foldl_cons, List.foldl_nil, BitVec.toNat_ofNat, BitVec.extractLsb'_toNat,
    Nat.shiftRight_eq_div_pow]
  change (65536 * (65536 * (65536 * (65536 * (65536 * (65536 * (65536 * (65536 * 0 +
    a.toNat / 2 ^ 112 % 65536) + a.toNat / 2 ^ 96 % 65536) + a.toNat / 2 ^ 80 % 65536) +
    a.toNat / 2 ^ 64 % 65536) + a.toNat / 2 ^ 48 % 65536) + a.toNat / 2 ^ 32 % 65536) +
    a.toNat / 2 ^ 16 % 65536) + a.toNat / 2 ^ 0 % 65536) % 2 ^ 128 = _
  rw [hfirst, step 96, step 80, step 64, step 48, step 32, step 16, step 0, Nat.pow_zero,
    Nat.div_one, Nat.mod_eq_of_lt a.isLt]

/-- Groups joined by colons. -/
def joinGroups (gs : List (BitVec 16)) : List Char :=
  [':'].intercalate (gs.map fun g => Nat.toDigits 16 g.toNat)

theorem groups_toDigits (gs : List (BitVec 16)) (hgs : gs ≠ []) :
    groups (gs.map fun g => Nat.toDigits 16 g.toNat) = some gs := by
  induction gs with
  | nil => exact absurd rfl hgs
  | cons g gs ih =>
    cases gs with
    | nil => rw [List.map_cons, List.map_nil, groups, hexGroup_toDigits]
    | cons g' gs =>
      have hrest := ih (List.cons_ne_nil _ _)
      rw [List.map_cons] at hrest
      rw [List.map_cons, List.map_cons, groups, hexGroup_toDigits, hrest]
      · rfl
      · exact List.cons_ne_nil _ _

theorem pieces_ok (gs : List (BitVec 16)) :
    ∀ piece ∈ gs.map fun g => Nat.toDigits 16 g.toNat, piece ≠ [] ∧ ':' ∉ piece := by
  intro piece hpiece
  obtain ⟨g, _, rfl⟩ := List.mem_map.mp hpiece
  exact ⟨Nat.toDigits_ne_nil, fun h => (mem_toDigits h).2.1 rfl⟩

theorem split_joinGroups {gs : List (BitVec 16)} (hgs : gs ≠ []) :
    split ':' (joinGroups gs) = gs.map fun g => Nat.toDigits 16 g.toNat :=
  split_intercalate (by simpa using hgs) fun piece hpiece => (pieces_ok gs piece hpiece).2

theorem groupsOf_joinGroups (gs : List (BitVec 16)) : groupsOf (joinGroups gs) = some gs := by
  by_cases hgs : gs = []
  · rw [hgs]
    rfl
  · rw [groupsOf, split_joinGroups hgs, groups_toDigits gs hgs, if_neg]
    intro hempty
    have hsplit := split_joinGroups hgs
    rw [hempty] at hsplit
    obtain ⟨g, gs, rfl⟩ := List.exists_cons_of_ne_nil hgs
    exact absurd (List.cons.inj hsplit).1.symm Nat.toDigits_ne_nil

theorem mem_joinGroups {gs : List (BitVec 16)} {c : Char} (h : c ∈ joinGroups gs) :
    c ∈ addressChars ∧ c ≠ '.' := by
  rcases mem_intercalate h with rfl | ⟨piece, hpiece, hc⟩
  · decide
  · obtain ⟨g, _, rfl⟩ := List.mem_map.mp hpiece
    exact ⟨(mem_toDigits hc).1, (mem_toDigits hc).2.2⟩

/-- `run` is a row of zero groups of the list: where it starts and its length. -/
def IsZeros (gs : List Nat) (run : Nat × Nat) : Prop :=
  gs = gs.take run.1 ++ List.replicate run.2 0 ++ gs.drop (run.1 + run.2)

theorem isZeros_takeWhile (gs : List Nat) (i : Nat) :
    IsZeros gs (i, ((gs.drop i).takeWhile (· = 0)).length) := by
  have hzeros : (gs.drop i).takeWhile (· = 0) =
      List.replicate ((gs.drop i).takeWhile (· = 0)).length 0 :=
    List.eq_replicate_iff.mpr ⟨rfl, fun g hg => by simpa using List.mem_takeWhile_imp hg⟩
  have hrest : (gs.drop i).drop ((gs.drop i).takeWhile (· = 0)).length =
      (gs.drop i).dropWhile (· = 0) := by
    conv_lhs => rw [← List.takeWhile_append_dropWhile (p := (· = 0)) (l := gs.drop i)]
    exact List.drop_left' (by simp)
  rw [IsZeros, ← List.drop_drop, hrest, ← hzeros, List.append_assoc,
    List.takeWhile_append_dropWhile, List.take_append_drop]

theorem isZeros_longestZeros (gs : List Nat) : IsZeros gs (longestZeros gs) := by
  have hfold : ∀ runs : List (Nat × Nat), (∀ run ∈ runs, IsZeros gs run) →
      ∀ best, IsZeros gs best →
        IsZeros gs (runs.foldl (fun best run => if best.2 < run.2 then run else best) best) := by
    intro runs
    induction runs with
    | nil => exact fun _ _ hbest => hbest
    | cons run runs ih =>
      intro hruns best hbest
      refine ih (fun r hr => hruns r (List.mem_cons_of_mem _ hr)) _ ?_
      by_cases hlonger : best.2 < run.2
      · simpa only [hlonger, if_true] using hruns run List.mem_cons_self
      · simpa only [hlonger, if_false] using hbest
  refine hfold _ (fun run hrun => ?_) _ (by simp [IsZeros])
  obtain ⟨⟨tail, i⟩, hmem, rfl⟩ := List.mem_map.mp hrun
  obtain ⟨hi, htail⟩ := List.mem_zipIdx' hmem
  have hdrop : tail = gs.drop i := by rw [htail, List.getElem_tails]
  rw [hdrop]
  exact isZeros_takeWhile gs i

theorem parseV6_joinGroups {gs : List (BitVec 16)} (hlength : gs.length = 8) :
    parseV6 (joinGroups gs) = some (ofGroups gs) := by
  have hgs : gs ≠ [] := List.ne_nil_of_length_eq_add_one hlength
  have hone := splitTwice_intercalate (pieces_ok gs) []
  rw [List.append_nil, splitTwice, Option.map_none] at hone
  rw [parseV6, joinGroups, hone, ← joinGroups, split_joinGroups hgs, groups_toDigits gs hgs]
  exact if_pos hlength

/-- The groups on both sides of a `::` are read back, and what it stands for is zero. -/
theorem parseV6_elided {front back : List (BitVec 16)} {k : Nat} (hk : 1 ≤ k)
    (hlength : front.length + k + back.length = 8) :
    parseV6 (joinGroups front ++ ':' :: ':' :: joinGroups back) =
      some (ofGroups (front ++ List.replicate k 0 ++ back)) := by
  have htwice : splitTwice ':' (joinGroups front ++ ':' :: ':' :: joinGroups back) =
      some (joinGroups front, joinGroups back) := by
    rw [joinGroups, splitTwice_intercalate (pieces_ok front), splitTwice]
    simp
  have hrest : 8 - front.length - back.length = k := by omega
  rw [parseV6, htwice]
  simp only [groupsOf_joinGroups, hrest]
  exact if_pos ⟨by omega, fun h => (mem_joinGroups h).2 rfl⟩

/-- The IPv6 address of an IPv4 address is written with the latter at its end. -/
theorem parseV6_mapped {a : BitVec 128} (h : (groupList a).take 6 = [0, 0, 0, 0, 0, 0xffff]) :
    parseV6 ("::ffff:".toList ++ (displayV4 (a.extractLsb' 0 32)).toList) = some a := by
  have hv4 := parseV4_display (a.extractLsb' 0 32)
  have hfree := parseV4_no_colon hv4
  have hlong : 4 < (displayV4 (a.extractLsb' 0 32)).toList.length := by
    have hpos (i : Nat) : 0 < (Nat.toDigits 10 ((a.extractLsb' 0 32).extractLsb' i 8).toNat).length :=
      List.length_pos_of_ne_nil Nat.toDigits_ne_nil
    have h24 := hpos 24
    have h16 := hpos 16
    rw [toList_displayV4]
    simp only [List.map_cons, List.map_nil, List.intercalate_cons_cons, List.length_append,
      List.length_singleton]
    omega
  generalize (displayV4 (a.extractLsb' 0 32)).toList = text at hv4 hfree hlong
  have hlow : groups [text] = some [a.extractLsb' 16 16, a.extractLsb' 0 16] := by
    rw [groups, hexGroup, if_pos (Or.inr hlong), hv4]
    simp only [Option.map_some]
    rw [BitVec.extractLsb'_extractLsb'_of_le (by decide),
      BitVec.extractLsb'_extractLsb'_of_le (by decide)]
  have hsplit : split ':' ("ffff:".toList ++ text) = ["ffff".toList, text] := by
    rw [← split_of_not_mem hfree]
    exact split_append (a := "ffff".toList) (by decide) text
  have hback : groupsOf ("ffff:".toList ++ text) =
      some [0xffff, a.extractLsb' 16 16, a.extractLsb' 0 16] := by
    rw [groupsOf, if_neg (by simp), hsplit, groups, hlow]
    · rfl
    · exact List.cons_ne_nil _ _
  have hall : groupList a = List.replicate 5 0 ++ [0xffff, a.extractLsb' 16 16, a.extractLsb' 0 16] :=
    calc groupList a = (groupList a).take 6 ++ (groupList a).drop 6 := (List.take_append_drop 6 _).symm
      _ = [0, 0, 0, 0, 0, 0xffff] ++ (groupList a).drop 6 := by rw [h]
      _ = _ := rfl
  have htwice : splitTwice ':' ("::ffff:".toList ++ text) = some ([], "ffff:".toList ++ text) := by
    change splitTwice ':' (':' :: ':' :: ("ffff:".toList ++ text)) = _
    rw [splitTwice, if_pos ⟨rfl, rfl⟩]
  have hfront : groupsOf [] = some [] := rfl
  rw [parseV6, htwice]
  simp only [hfront, hback, List.length_nil, List.length_cons, List.nil_append, List.not_mem_nil,
    not_false_eq_true, and_true]
  rw [if_pos (by decide), ← hall, ofGroups_groupList]

theorem toList_join (gs : List (BitVec 16)) :
    (":".intercalate ((gs.map BitVec.toNat).map hexText)).toList = joinGroups gs := by
  rw [String.toList_intercalate, List.map_map, List.map_map, joinGroups]
  refine congrArg₂ List.intercalate rfl (List.map_congr_left fun g _ => ?_)
  exact String.toList_ofList

theorem toNat_injective : Function.Injective (BitVec.toNat : BitVec 16 → Nat) :=
  fun _ _ => BitVec.eq_of_toNat_eq

theorem display_v6 (a : BitVec 128) : (IpAddr.v6 a).display.toList =
    let gs := groupList a
    let run := longestZeros (gs.map BitVec.toNat)
    if gs.take 6 = [0, 0, 0, 0, 0, 0xffff] then
      "::ffff:".toList ++ (displayV4 (a.extractLsb' 0 32)).toList
    else if 1 < run.2 then
      joinGroups (gs.take run.1) ++ ':' :: ':' :: joinGroups (gs.drop (run.1 + run.2))
    else joinGroups gs := by
  have hgs : ((List.range 8).map fun i => (a.extractLsb' (112 - 16 * i) 16).toNat) =
      (groupList a).map BitVec.toNat := by
    rw [groupList, List.map_map]
    rfl
  have hmapped : ((groupList a).map BitVec.toNat).take 6 = [0, 0, 0, 0, 0, 0xffff] ↔
      (groupList a).take 6 = [0, 0, 0, 0, 0, 0xffff] := by
    rw [← List.map_take]
    exact (List.map_injective_iff.mpr toNat_injective).eq_iff (b := [0, 0, 0, 0, 0, 0xffff])
  rw [display]
  simp only [hgs, hmapped]
  split_ifs
  · rw [String.toList_append]
  · rw [String.toList_append, String.toList_append, ← List.map_take, ← List.map_drop,
      toList_join, toList_join, List.append_assoc]
    rfl
  · exact toList_join _

theorem parseV6_display (a : BitVec 128) : parseV6 (IpAddr.v6 a).display.toList = some a := by
  have hlength : (groupList a).length = 8 := rfl
  rw [display_v6]
  simp only
  split_ifs with hmapped hrun
  · exact parseV6_mapped hmapped
  · have hzeros := isZeros_longestZeros ((groupList a).map BitVec.toNat)
    generalize longestZeros ((groupList a).map BitVec.toNat) = run at hrun hzeros ⊢
    obtain ⟨i, k⟩ := run
    have hparts : groupList a =
        (groupList a).take i ++ List.replicate k 0 ++ (groupList a).drop (i + k) := by
      apply List.map_injective_iff.mpr toNat_injective
      rw [List.map_append, List.map_append, List.map_take, List.map_drop, List.map_replicate]
      exact hzeros
    have hcount : ((groupList a).take i).length + k + ((groupList a).drop (i + k)).length = 8 := by
      rw [← hlength]
      conv_rhs => rw [hparts]
      simp only [List.length_append, List.length_replicate]
    rw [parseV6_elided (Nat.le_of_lt hrun) hcount, ← hparts, ofGroups_groupList]
  · rw [parseV6_joinGroups hlength, ofGroups_groupList]

/-- The address an address is displayed as is that address. -/
theorem parse_display (ip : IpAddr) : parse ip.display = some ip := by
  cases ip with
  | v4 a =>
    rw [parse, parseChars, display, parseV4_display]
  | v6 a =>
    have hv6 := parseV6_display a
    have hv4 : parseV4 (IpAddr.v6 a).display.toList = none :=
      Option.eq_none_iff_forall_ne_some.mpr fun b hb => parseV4_no_colon hb (parseV6_colon hv6)
    rw [parse, parseChars, hv4, hv6]
    rfl

theorem mem_of_isDigit {c : Char} (h : c.isDigit = true) : c ∈ addressChars := by
  have hall : ∀ n, '0'.toNat ≤ n → n ≤ '9'.toNat → Char.ofNat n ∈ addressChars := by
    intro n hlow hhigh
    have hlow : 48 ≤ n := hlow
    have hhigh : n < 58 := Nat.lt_succ_of_le hhigh
    exact (by decide : ∀ n < 58, 48 ≤ n → Char.ofNat n ∈ addressChars) n hhigh hlow
  obtain ⟨hlow, hhigh⟩ := Char.isDigit_iff_toNat.mp h
  exact Char.ofNat_toNat c ▸ hall c.toNat hlow hhigh

theorem mem_decimal {n : Nat} {c : Char} (h : c ∈ Nat.toDigits 10 n) : c ∈ addressChars :=
  mem_of_isDigit (Nat.isDigit_of_mem_toDigits (by decide) (by decide) h)

theorem mem_displayV4 {a : BitVec 32} {c : Char} (h : c ∈ (displayV4 a).toList) :
    c ∈ addressChars := by
  rw [toList_displayV4] at h
  rcases mem_intercalate h with rfl | ⟨piece, hpiece, hc⟩
  · decide
  · obtain ⟨i, _, rfl⟩ := List.mem_map.mp hpiece
    exact mem_decimal hc

theorem mem_display {ip : IpAddr} {c : Char} (h : c ∈ ip.display.toList) : c ∈ addressChars := by
  cases ip with
  | v4 a => exact mem_displayV4 h
  | v6 a =>
    rw [display_v6] at h
    simp only at h
    split_ifs at h
    · rcases List.mem_append.mp h with h | h
      · exact (of_all (by decide) : ∀ c ∈ "::ffff:".toList, c ∈ addressChars) c h
      · exact mem_displayV4 h
    · rcases List.mem_append.mp h with h | h
      · exact (mem_joinGroups h).1
      · rcases List.mem_cons.mp h with rfl | h
        · decide
        · rcases List.mem_cons.mp h with rfl | h
          · decide
          · exact (mem_joinGroups h).1
    · exact (mem_joinGroups h).1

end IpAddr

theorem SocketAddr.mem_display {a : SocketAddr} {c : Char} (h : c ∈ a.display.toList) :
    c = '[' ∨ c = ']' ∨ c ∈ IpAddr.addressChars := by
  have hport : ∀ d ∈ (toString a.port.toNat).toList, d ∈ IpAddr.addressChars := fun d hd =>
    IpAddr.mem_decimal (Nat.toList_repr ▸ hd)
  rw [display] at h
  split at h
  · rw [String.toList_append, String.toList_append, List.mem_append, List.mem_append] at h
    rcases h with (h | h) | h
    · exact .inr (.inr (IpAddr.mem_display h))
    · exact .inr (.inr ((of_all (by decide) : ∀ d ∈ ":".toList, d ∈ IpAddr.addressChars) c h))
    · exact .inr (.inr (hport c h))
  · rw [String.toList_append, String.toList_append, String.toList_append, List.mem_append,
      List.mem_append, List.mem_append] at h
    rcases h with ((h | h) | h) | h
    · exact .inl (List.mem_singleton.mp h)
    · exact .inr (.inr (IpAddr.mem_display h))
    · exact .inr ((of_all (by decide) : ∀ d ∈ "]:".toList, d = ']' ∨ d ∈ IpAddr.addressChars) c h)
    · exact .inr (.inr (hport c h))

namespace SocketAddr

/-- A port, with the colon before it. -/
def parsePort (cs : List Char) : Option UInt16 :=
  match splitOnce ':' cs with
  | some ([], digits) =>
    match IpAddr.decimalDigits digits with
    | some n => if n < 2 ^ 16 then some (UInt16.ofNat n) else none
    | none => none
  | _ => none

/-- `SocketAddr::from_str`, without the scope an IPv6 address may name. -/
def parse (s : String) : Option SocketAddr :=
  let cs := s.toList
  if cs.head? = some '[' then
    match splitOnce ']' cs.tail with
    | some (ip, port) => do return ⟨.v6 (← IpAddr.parseV6 ip), ← parsePort port⟩
    | none => none
  else
    match splitOnce ':' cs with
    | some (ip, port) => do return ⟨.v4 (← IpAddr.parseV4 ip), ← parsePort (':' :: port)⟩
    | none => none

theorem parsePort_toDigits (port : UInt16) :
    parsePort (':' :: Nat.toDigits 10 port.toNat) = some port := by
  have hsplit : splitOnce ':' (':' :: Nat.toDigits 10 port.toNat) = some ([], _) := if_pos rfl
  rw [parsePort, hsplit]
  dsimp only
  rw [IpAddr.decimalDigits_toDigits]
  refine (if_pos port.toNat_lt).trans ?_
  rw [UInt16.ofNat_toNat]

/-- The address and port that an address and port are displayed as are those. -/
theorem parse_display (a : SocketAddr) : parse a.display = some a := by
  obtain ⟨ip, port⟩ := a
  have hport : (toString port.toNat).toList = Nat.toDigits 10 port.toNat := Nat.toList_repr
  cases ip with
  | v4 bits =>
    have htext : (display ⟨.v4 bits, port⟩).toList =
        (IpAddr.displayV4 bits).toList ++ ':' :: Nat.toDigits 10 port.toNat := by
      rw [display, String.toList_append, String.toList_append, hport, List.append_assoc]
      rfl
    have hcolon : ':' ∉ (IpAddr.displayV4 bits).toList :=
      IpAddr.parseV4_no_colon (IpAddr.parseV4_display bits)
    have hbracket : (display ⟨.v4 bits, port⟩).toList.head? ≠ some '[' := by
      rw [htext, List.head?_append]
      cases hdigits : (IpAddr.displayV4 bits).toList with
      | nil => rintro ⟨⟩
      | cons c cs =>
        rintro ⟨⟩
        have hmem := IpAddr.mem_displayV4 (hdigits ▸ List.mem_cons_self)
        exact absurd hmem (by decide)
    rw [parse, if_neg hbracket, htext, splitOnce_append hcolon]
    dsimp only
    rw [IpAddr.parseV4_display, parsePort_toDigits]
    rfl
  | v6 bits =>
    have htext : (display ⟨.v6 bits, port⟩).toList =
        '[' :: ((IpAddr.v6 bits).display.toList ++ ']' :: ':' :: Nat.toDigits 10 port.toNat) := by
      rw [display, String.toList_append, String.toList_append, String.toList_append, hport,
        List.append_assoc, List.append_assoc]
      rfl
    have hbracket : ']' ∉ (IpAddr.v6 bits).display.toList := fun h =>
      absurd (IpAddr.mem_display h) (by decide)
    rw [parse, htext, List.head?_cons, if_pos rfl, List.tail_cons, splitOnce_append hbracket]
    dsimp only
    rw [IpAddr.parseV6_display, parsePort_toDigits]
    rfl

end SocketAddr

namespace Cidr

theorem parseU8_toDigits {n : Nat} (h : n ≤ 255) : parseU8 (Nat.toDigits 10 n) = some n := by
  have hplus : (Nat.toDigits 10 n).head? ≠ some '+' := fun hhead =>
    absurd (Nat.isDigit_of_mem_toDigits (by decide) (by decide) (List.mem_of_head? hhead)) (by decide)
  rw [parseU8, if_neg hplus, IpAddr.decimalDigits_toDigits]
  exact if_pos h

theorem toList_display (c : Cidr) :
    c.display.toList = c.addr.display.toList ++ '/' :: Nat.toDigits 10 c.prefixLen := by
  rw [display, String.toList_append, String.toList_append, List.append_assoc]
  exact congrArg (c.addr.display.toList ++ '/' :: ·) Nat.toList_repr

theorem mem_display {c : Cidr} {d : Char} (h : d ∈ c.display.toList) :
    d = '/' ∨ d ∈ IpAddr.addressChars := by
  rw [toList_display, List.mem_append, List.mem_cons] at h
  rcases h with h | rfl | h
  · exact .inr (IpAddr.mem_display h)
  · exact .inl rfl
  · exact .inr (IpAddr.mem_decimal h)

/-- The prefix a prefix is displayed as is that prefix. -/
theorem parse_display (c : Cidr) : parse c.display = some c := by
  have htext := toList_display c
  have haddr : ∀ d ∈ c.addr.display.toList, IpAddr.IsPlain d := fun _ hd =>
    IpAddr.isPlain_of_mem (IpAddr.mem_display hd)
  have hlen : ∀ d ∈ Nat.toDigits 10 c.prefixLen, IpAddr.IsPlain d := fun _ hd =>
    IpAddr.isPlain_of_mem (IpAddr.mem_decimal hd)
  have hall : ∀ d ∈ c.display.toList, isWhitespace d = false := by
    rw [htext]
    intro d hd
    rcases List.mem_append.mp hd with hd | hd
    · exact (haddr d hd).2
    · rcases List.mem_cons.mp hd with rfl | hd
      · decide
      · exact (hlen d hd).2
  have hsmall : c.prefixLen ≤ 255 := by
    have hfits := c.fits
    have hwidth : c.addr.width ≤ 128 := by cases c.addr <;> simp [IpAddr.width]
    omega
  have hparsed := IpAddr.parse_display c.addr
  rw [IpAddr.parse] at hparsed
  simp only [parse]
  rw [trimChars_of_not_whitespace hall, htext, splitOnce_append fun h => (haddr '/' h).1 rfl]
  simp only [trimChars_of_not_whitespace fun d hd => (haddr d hd).2,
    trimChars_of_not_whitespace fun d hd => (hlen d hd).2, hparsed, parseU8_toDigits hsmall,
    c.fits, dite_true]

end Cidr

end Vpnmgr
