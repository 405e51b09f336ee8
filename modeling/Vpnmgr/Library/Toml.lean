import Vpnmgr.Library.Fields
import Vpnmgr.Library.Ieee

/-! TOML documents as trees, and how values of the settings are read from them. -/

namespace Toml

open Fields Ieee

inductive Value where
  | string (s : String)
  | integer (n : Int)
  | float (x : F64)
  | boolean (b : Bool)
  | datetime (text : String)
  | array (vs : List Value)
  | table (r : List (String × Value))

namespace Value

variable {ε α : Type}

def asString : Value → Decoded ε String
  | string s => .ok s
  | _ => .error (.invalidType "a string")

def asBool : Value → Decoded ε Bool
  | boolean b => .ok b
  | _ => .error (.invalidType "a boolean")

/-- An unsigned integer of so many bits. -/
def asUnsigned (bits : Nat) : Value → Decoded ε Nat
  | integer n =>
    if 0 ≤ n ∧ n < 2 ^ bits then .ok n.toNat else .error (.invalidValue s!"u{bits}")
  | _ => .error (.invalidType s!"u{bits}")

/-- A double, for which an integer will do. -/
def asFloat : Value → Decoded ε F64
  | float x => .ok x
  | integer n => .ok (.finite n)
  | _ => .error (.invalidType "f64")

def asList (decode : Value → Decoded ε α) : Value → Decoded ε (List α)
  | array vs => vs.mapM decode
  | _ => .error (.invalidType "a sequence")

def asStruct (decode : Record Value → Decoded ε α) : Value → Decoded ε α
  | table r => decode r
  | _ => .error (.invalidType "a table")

def ofNat (n : Nat) : Value := integer n

def ofList (encode : α → Value) (as : List α) : Value := array (as.map encode)

/-- The values that a key and an equals sign introduce. -/
def isPlain : Value → Bool
  | table _ => false
  | _ => true

/-- A tree that a document spells in this order: no name twice in a table, its plain values before
its tables, and no tables in arrays. -/
inductive Tidy : Value → Prop where
  | string (s : String) : Tidy (.string s)
  | integer (n : Int) : Tidy (.integer n)
  | float (x : F64) : Tidy (.float x)
  | boolean (b : Bool) : Tidy (.boolean b)
  | datetime (text : String) : Tidy (.datetime text)
  | array {vs : List Value} (plain : ∀ v ∈ vs, v.isPlain = true) (tidy : ∀ v ∈ vs, Tidy v) :
    Tidy (.array vs)
  | table {r : List (String × Value)} (names : (r.map Prod.fst).Nodup)
    (order : r.Pairwise fun a b => b.2.isPlain = true → a.2.isPlain = true)
    (tidy : ∀ e ∈ r, Tidy e.2) : Tidy (.table r)

theorem asUnsigned_ofNat {bits n : Nat} (h : n < 2 ^ bits) :
    (ofNat n).asUnsigned bits = (.ok n : Decoded ε Nat) := by
  have hint : (n : Int) < 2 ^ bits := by exact_mod_cast h
  rw [ofNat, asUnsigned, if_pos ⟨Int.natCast_nonneg n, hint⟩, Int.toNat_natCast]

theorem asUnsigned_lt {bits n : Nat} {v : Value}
    (h : v.asUnsigned bits = (.ok n : Decoded ε Nat)) : n < 2 ^ bits := by
  unfold asUnsigned at h
  split at h
  · split at h
    · next hn =>
      cases h
      rw [Int.toNat_lt hn.1]
      exact_mod_cast hn.2
    · cases h
  · cases h

theorem asList_ofList {encode : α → Value} {decode : Value → Decoded ε α} {as : List α}
    (h : ∀ a ∈ as, decode (encode a) = .ok a) : (ofList encode as).asList decode = .ok as :=
  mapM_map_ok h

theorem asStruct_ofEntries (names : List String) (entries : List (String × Option Value))
    {decode : (String → Option Value) → Decoded ε α} (hnames : entries.map Prod.fst = names)
    (hnodup : names.Nodup) :
    asStruct (closedStruct names decode) (.table (ofEntries entries)) =
      decode fun name => (entries.lookup name).join :=
  closedStruct_ofEntries names entries hnames hnodup

theorem asStruct_ok {names : List String} {decode : (String → Option Value) → Decoded ε α}
    {v : Value} {a : α} (h : asStruct (closedStruct names decode) v = .ok a) :
    ∃ get, decode get = .ok a := by
  cases v with
  | table r => exact ⟨_, closedStruct_ok h⟩
  | _ => cases h

/-- What an entry writes, if anything, is a plain value. -/
def PlainEntry (o : Option Value) : Prop := ∀ v, o = some v → v.isPlain = true ∧ v.Tidy

theorem PlainEntry.string (s : String) : PlainEntry (some (.string s)) := by
  rintro _ ⟨⟩
  exact ⟨rfl, .string s⟩

theorem PlainEntry.ofNat (n : Nat) : PlainEntry (some (.ofNat n)) := by
  rintro _ ⟨⟩
  exact ⟨rfl, .integer n⟩

theorem PlainEntry.float (x : F64) : PlainEntry (some (.float x)) := by
  rintro _ ⟨⟩
  exact ⟨rfl, .float x⟩

theorem PlainEntry.boolean (b : Bool) : PlainEntry (some (.boolean b)) := by
  rintro _ ⟨⟩
  exact ⟨rfl, .boolean b⟩

theorem PlainEntry.ofList {encode : α → Value} (h : ∀ a, PlainEntry (some (encode a)))
    (as : List α) : PlainEntry (some (.ofList encode as)) := by
  rintro _ ⟨⟩
  refine ⟨rfl, .array (fun v hv => ?_) fun v hv => ?_⟩
  all_goals
    obtain ⟨a, _, rfl⟩ := List.mem_map.mp hv
  · exact (h a _ rfl).1
  · exact (h a _ rfl).2

theorem PlainEntry.map {encode : α → Value} (h : ∀ a, PlainEntry (some (encode a)))
    (o : Option α) : PlainEntry (o.map encode) := by
  intro v hv
  obtain ⟨a, _, rfl⟩ := Option.map_eq_some_iff.mp hv
  exact h a _ rfl

theorem PlainEntry.unlessEmpty {encode : List α → Value}
    (h : ∀ as, PlainEntry (some (encode as))) (as : List α) :
    PlainEntry (unlessEmpty encode as) := by
  intro v hv
  unfold Fields.unlessEmpty at hv
  split at hv
  · cases hv
  · exact h as v hv

theorem mem_of_mem_ofEntries {entries : List (String × Option Value)} {e : String × Value}
    (h : e ∈ ofEntries entries) : (e.1, some e.2) ∈ entries := by
  induction entries with
  | nil => cases h
  | cons entry entries ih =>
    obtain ⟨name, value⟩ := entry
    cases value with
    | none => exact List.mem_cons_of_mem _ (ih h)
    | some v =>
      rcases List.mem_cons.mp h with rfl | h
      · exact List.mem_cons_self
      · exact List.mem_cons_of_mem _ (ih h)

theorem ofEntries_append (a b : List (String × Option Value)) :
    ofEntries (a ++ b) = ofEntries a ++ ofEntries b := by
  induction a with
  | nil => rfl
  | cons entry a ih =>
    obtain ⟨name, value⟩ := entry
    cases value with
    | none => exact ih
    | some v => exact congrArg (List.cons (name, v)) ih

/-- Entries whose plain values come first make a tidy table. -/
theorem tidy_ofEntries {plain tables : List (String × Option Value)}
    (hnames : ((plain ++ tables).map Prod.fst).Nodup) (hplain : ∀ e ∈ plain, PlainEntry e.2)
    (htables : ∀ e ∈ tables, ∀ v, e.2 = some v → v.isPlain = false ∧ v.Tidy) :
    Tidy (.table (ofEntries (plain ++ tables))) := by
  refine .table (hnames.sublist (map_fst_ofEntries_sublist _)) ?_ fun e he => ?_
  · rw [ofEntries_append, List.pairwise_append]
    refine ⟨?_, ?_, ?_⟩
    · exact List.pairwise_of_forall_mem_list fun a ha b _ _ =>
        (hplain _ (mem_of_mem_ofEntries ha) _ rfl).1
    · refine List.pairwise_of_forall_mem_list fun a _ b hb h => ?_
      rw [(htables _ (mem_of_mem_ofEntries hb) _ rfl).1] at h
      cases h
    · intro a ha b _ _
      exact (hplain _ (mem_of_mem_ofEntries ha) _ rfl).1
  · have hmem := mem_of_mem_ofEntries he
    rcases List.mem_append.mp hmem with hmem | hmem
    · exact (hplain _ hmem _ rfl).2
    · exact (htables _ hmem _ rfl).2

theorem tidy_ofPlain {entries : List (String × Option Value)}
    (hnames : (entries.map Prod.fst).Nodup) (hplain : ∀ e ∈ entries, PlainEntry e.2) :
    Tidy (.table (ofEntries entries)) := by
  rw [← entries.append_nil] at hnames ⊢
  exact tidy_ofEntries hnames hplain fun e he => (nomatch he)

theorem tidy_ofTables {entries : List (String × Option Value)}
    (hnames : (entries.map Prod.fst).Nodup)
    (htables : ∀ e ∈ entries, ∀ v, e.2 = some v → v.isPlain = false ∧ v.Tidy) :
    Tidy (.table (ofEntries entries)) := by
  rw [← entries.nil_append] at hnames ⊢
  exact tidy_ofEntries hnames (fun e he => (nomatch he)) htables

end Value

/-- A writer and a reader of documents. -/
structure Format where
  write : Record Value → Except String String
  read : String → Except String (Record Value)

/-- What was written is read back. -/
def Format.Lossless (format : Format) : Prop :=
  ∀ (r : Record Value) (text : String), (Value.table r).Tidy → format.write r = .ok text →
    format.read text = .ok r

open Classical in
/-- The format that knows one document. -/
noncomputable def Format.only (r : Record Value) (text : String) : Format where
  write r' := if r' = r then .ok text else .error "not supported"
  read text' := if text' = text then .ok r else .error "not supported"

theorem Format.only_write (r : Record Value) (text : String) :
    (only r text).write r = .ok text := if_pos rfl

theorem Format.only_lossless (r : Record Value) (text : String) : (only r text).Lossless := by
  intro r' text' _ hwrite
  unfold only at hwrite
  dsimp only at hwrite
  split at hwrite
  · next hr =>
    cases hwrite
    exact (if_pos rfl).trans (congrArg _ hr.symm)
  · cases hwrite

end Toml
