import Mathlib.Data.List.Nodup

/-! Structures as records of named values: a field is written or left out, and read by its name, with
or without a default. -/

namespace Fields

/-- The named values of a structure, in their order. -/
abbrev Record (V : Type) := List (String × V)

/-- Why a value or a record is refused. A value's own type may have reasons of its own. -/
inductive DecodeError (ε : Type) where
  | invalidType (expected : String)
  | invalidValue (expected : String)
  | unknownVariant (name : String)
  | unknownField (name : String)
  | duplicateField (name : String)
  | missingField (name : String)
  | custom (error : ε)
  deriving DecidableEq, Repr

def DecodeError.message {ε : Type} (text : ε → String) : DecodeError ε → String
  | invalidType expected => s!"invalid type: expected {expected}"
  | invalidValue expected => s!"invalid value: expected {expected}"
  | unknownVariant name => s!"unknown variant `{name}`"
  | unknownField name => s!"unknown field `{name}`"
  | duplicateField name => s!"duplicate field `{name}`"
  | missingField name => s!"missing field `{name}`"
  | custom error => text error

abbrev Decoded (ε : Type) := Except (DecodeError ε)

@[simp] theorem ok_bind {ε α β : Type} (a : α) (f : α → Except ε β) : Except.ok a >>= f = f a := rfl

theorem bind_ok {ε α β : Type} {x : Except ε α} {f : α → Except ε β} {b : β} :
    x >>= f = .ok b ↔ ∃ a, x = .ok a ∧ f a = .ok b := by
  cases x with
  | error e => exact ⟨fun h => (by cases h), fun ⟨_, h, _⟩ => (by cases h)⟩
  | ok a => exact ⟨fun h => ⟨a, rfl, h⟩, fun ⟨_, h, hf⟩ => (by cases h; exact hf)⟩

theorem map_ok {ε α β : Type} {x : Except ε α} {f : α → β} {b : β} :
    x.map f = .ok b ↔ ∃ a, x = .ok a ∧ f a = b := by
  cases x <;> simp [Except.map]

theorem mapError_ok {ε ε' α : Type} {x : Except ε α} {f : ε → ε'} {a : α} :
    x.mapError f = .ok a ↔ x = .ok a := by
  cases x <;> simp [Except.mapError]

theorem mapM_map_ok {ε α V : Type} {encode : α → V} {decode : V → Except ε α} {as : List α}
    (h : ∀ a ∈ as, decode (encode a) = .ok a) : (as.map encode).mapM decode = .ok as := by
  induction as with
  | nil => rfl
  | cons a as ih =>
    rw [List.map_cons, List.mapM_cons, h a List.mem_cons_self,
      ih fun b hb => h b (List.mem_cons_of_mem _ hb)]
    rfl

variable {ε V α : Type}

/-- The record of the fields that are written: each has a value or is left out. -/
def ofEntries : List (String × Option V) → Record V
  | [] => []
  | (name, some v) :: rest => (name, v) :: ofEntries rest
  | (_, none) :: rest => ofEntries rest

/-- No value for an empty list. -/
def unlessEmpty (encode : List α → V) (as : List α) : Option V :=
  if as = [] then none else some (encode as)

/-- The value of an optional field that is there. -/
def present (decode : V → Decoded ε α) (v : V) : Decoded ε (Option α) := (decode v).map some

/-- A field that must be there. -/
def required (get : String → Option V) (name : String) (decode : V → Decoded ε α) : Decoded ε α :=
  match get name with
  | some v => decode v
  | none => .error (.missingField name)

/-- A field with a default. -/
def withDefault (get : String → Option V) (name : String) (decode : V → Decoded ε α) (default : α) :
    Decoded ε α :=
  match get name with
  | some v => decode v
  | none => .ok default

/-- The first field that occurs twice. -/
def duplicate : Record V → Option String
  | [] => none
  | (name, _) :: rest => if name ∈ rest.map Prod.fst then some name else duplicate rest

/-- A structure with these fields, from a record that may have others. -/
def openStruct (names : List String) (decode : (String → Option V) → Decoded ε α) (r : Record V) :
    Decoded ε α :=
  match duplicate (r.filter (·.1 ∈ names)) with
  | some name => .error (.duplicateField name)
  | none => decode fun name => r.lookup name

/-- A structure with these fields and no others. -/
def closedStruct (names : List String) (decode : (String → Option V) → Decoded ε α) (r : Record V) :
    Decoded ε α :=
  match r.find? (·.1 ∉ names) with
  | some (name, _) => .error (.unknownField name)
  | none => openStruct names decode r

theorem withDefault_of {get : String → Option V} {name : String} {decode : V → Decoded ε α}
    {default a : α} {P : α → Prop} (hdefault : P default)
    (hdecode : ∀ v a, decode v = .ok a → P a) (h : withDefault get name decode default = .ok a) :
    P a := by
  unfold withDefault at h
  split at h
  · exact hdecode _ _ h
  · cases h; exact hdefault

theorem present_ok {decode : V → Decoded ε α} {v : V} {o : Option α}
    (h : present decode v = .ok o) : ∃ a, decode v = .ok a ∧ o = some a := by
  obtain ⟨a, ha, rfl⟩ := map_ok.mp h
  exact ⟨a, ha, rfl⟩

theorem closedStruct_ok {names : List String} {decode : (String → Option V) → Decoded ε α}
    {r : Record V} {a : α} (h : closedStruct names decode r = .ok a) :
    decode (fun name => r.lookup name) = .ok a := by
  unfold closedStruct openStruct at h
  split at h
  · cases h
  · split at h
    · cases h
    · exact h

theorem required_ok {get : String → Option V} {name : String} {decode : V → Decoded ε α} {a : α}
    (h : required get name decode = .ok a) : ∃ v, decode v = .ok a := by
  unfold required at h
  split at h
  · exact ⟨_, h⟩
  · cases h

theorem required_some {get : String → Option V} {name : String} {decode : V → Decoded ε α} {v : V}
    {r : Decoded ε α} (hget : get name = some v) (h : decode v = r) : required get name decode = r := by
  rw [required, hget]
  exact h

theorem withDefault_some {get : String → Option V} {name : String} {decode : V → Decoded ε α}
    {default : α} {v : V} {r : Decoded ε α} (hget : get name = some v) (h : decode v = r) :
    withDefault get name decode default = r := by
  rw [withDefault, hget]
  exact h

/-- An optional field comes back, and the default in the place of one that was left out. -/
theorem withDefault_map {get : String → Option V} {name : String} {encode : α → V}
    {decode : V → Decoded ε α} {default o : Option α} (hget : get name = o.map encode)
    (h : ∀ a, o = some a → decode (encode a) = .ok a) :
    withDefault get name (present decode) default = .ok (o.or default) := by
  rw [withDefault, hget]
  cases o with
  | none => rfl
  | some a =>
    change (decode (encode a)).map some = _
    rw [h a rfl]
    rfl

theorem withDefault_map_none {get : String → Option V} {name : String} {encode : α → V}
    {decode : V → Decoded ε α} {o : Option α} (hget : get name = o.map encode)
    (h : ∀ a, o = some a → decode (encode a) = .ok a) :
    withDefault get name (present decode) none = .ok o := by
  rw [withDefault_map hget h, Option.or_none]

theorem withDefault_unlessEmpty {get : String → Option V} {name : String} {encode : List α → V}
    {decode : V → Decoded ε (List α)} {as : List α} (hget : get name = unlessEmpty encode as)
    (h : decode (encode as) = .ok as) : withDefault get name decode [] = .ok as := by
  rw [withDefault, hget, unlessEmpty]
  by_cases has : as = []
  · rw [if_pos has, has]
  · rw [if_neg has]
    exact h

theorem map_fst_ofEntries_sublist (entries : List (String × Option V)) :
    ((ofEntries entries).map Prod.fst).Sublist (entries.map Prod.fst) := by
  induction entries with
  | nil => exact List.Sublist.slnil
  | cons e entries ih =>
    obtain ⟨name, value⟩ := e
    cases value with
    | none => exact ih.cons _
    | some v => exact ih.cons_cons _

theorem duplicate_eq_none {r : Record V} (h : (r.map Prod.fst).Nodup) : duplicate r = none := by
  induction r with
  | nil => rfl
  | cons e r ih =>
    rw [List.map_cons, List.nodup_cons] at h
    rw [duplicate, if_neg h.1, ih h.2]

theorem lookup_of_not_mem {name : String} {r : Record V} (h : name ∉ r.map Prod.fst) :
    r.lookup name = none := by
  induction r with
  | nil => rfl
  | cons e r ih =>
    rw [List.map_cons, List.mem_cons, not_or] at h
    rw [List.lookup_cons, beq_false_of_ne h.1]
    exact ih h.2

/-- What is read under a name is what was written under it. -/
theorem lookup_ofEntries {entries : List (String × Option V)} (h : (entries.map Prod.fst).Nodup)
    (name : String) : (ofEntries entries).lookup name = (entries.lookup name).join := by
  induction entries with
  | nil => rfl
  | cons e entries ih =>
    rw [List.map_cons, List.nodup_cons] at h
    obtain ⟨name', value⟩ := e
    rw [List.lookup_cons]
    by_cases hname : name = name'
    · subst hname
      rw [beq_self_eq_true]
      cases value with
      | some v => rw [ofEntries, List.lookup_cons_self]; rfl
      | none =>
        rw [ofEntries]
        exact lookup_of_not_mem fun hmem =>
          h.1 ((map_fst_ofEntries_sublist entries).subset hmem)
    · rw [beq_false_of_ne hname]
      cases value with
      | some v =>
        rw [ofEntries, List.lookup_cons, beq_false_of_ne hname]
        exact ih h.2
      | none =>
        rw [ofEntries]
        exact ih h.2

theorem openStruct_of_nodup (names : List String) {r : Record V}
    {decode : (String → Option V) → Decoded ε α} (h : (r.map Prod.fst).Nodup) :
    openStruct names decode r = decode fun name => r.lookup name := by
  have hkept : ((r.filter (·.1 ∈ names)).map Prod.fst).Nodup :=
    h.sublist (List.filter_sublist.map _)
  rw [openStruct, duplicate_eq_none hkept]

theorem openStruct_ofEntries (names : List String) (entries : List (String × Option V))
    {decode : (String → Option V) → Decoded ε α} (hnames : entries.map Prod.fst = names)
    (hnodup : names.Nodup) :
    openStruct names decode (ofEntries entries) = decode fun name => (entries.lookup name).join := by
  rw [← hnames] at hnodup
  rw [openStruct_of_nodup names (hnodup.sublist (map_fst_ofEntries_sublist entries))]
  simp only [lookup_ofEntries hnodup]

theorem closedStruct_ofEntries (names : List String) (entries : List (String × Option V))
    {decode : (String → Option V) → Decoded ε α} (hnames : entries.map Prod.fst = names)
    (hnodup : names.Nodup) :
    closedStruct names decode (ofEntries entries) =
      decode fun name => (entries.lookup name).join := by
  have hknown : (ofEntries entries).find? (·.1 ∉ names) = none := by
    refine List.find?_eq_none.mpr fun e he => ?_
    have hmem := (map_fst_ofEntries_sublist entries).subset (List.mem_map_of_mem he)
    rw [hnames] at hmem
    simpa using hmem
  rw [closedStruct, hknown]
  exact openStruct_ofEntries names entries hnames hnodup

theorem nodup_of_duplicate {r : Record V} (h : duplicate r = none) : (r.map Prod.fst).Nodup := by
  induction r with
  | nil => exact List.nodup_nil
  | cons e r ih =>
    obtain ⟨name, v⟩ := e
    rw [duplicate] at h
    split at h
    · cases h
    · next hname => exact List.nodup_cons.mpr ⟨hname, ih h⟩

/-- Where no name occurs twice, a name has the values that stand with it. -/
theorem lookup_eq_some_iff {r : Record V} (h : (r.map Prod.fst).Nodup) {name : String} {v : V} :
    r.lookup name = some v ↔ (name, v) ∈ r := by
  induction r with
  | nil => simp
  | cons e r ih =>
    obtain ⟨other, w⟩ := e
    obtain ⟨hother, hr⟩ := List.nodup_cons.mp h
    rw [List.lookup_cons, List.mem_cons]
    by_cases hname : name = other
    · subst hname
      have hrest : (name, v) ∉ r := fun hmem => hother (List.mem_map.mpr ⟨_, hmem, rfl⟩)
      simp [hrest, eq_comm]
    · rw [beq_false_of_ne hname]
      simp [hname, ih hr]

/-- The fields of these names are the same, in whatever order and among whatever others. -/
def Alike (names : List String) (r r' : Record V) : Prop :=
  (r.filter (·.1 ∈ names)).Perm (r'.filter (·.1 ∈ names))

theorem lookup_filter {names : List String} {name : String} (hname : name ∈ names) (r : Record V) :
    (r.filter (·.1 ∈ names)).lookup name = r.lookup name := by
  induction r with
  | nil => rfl
  | cons e r ih =>
    obtain ⟨other, w⟩ := e
    by_cases hother : other ∈ names
    · rw [List.filter_cons_of_pos (by simpa using hother), List.lookup_cons, List.lookup_cons, ih]
    · have hne : (name == other) = false := beq_false_of_ne fun h => hother (h ▸ hname)
      rw [List.filter_cons_of_neg (by simpa using hother), List.lookup_cons, hne, ih]

/-- Alike records have no name twice together, and give each name the same value. -/
theorem Alike.fields {names : List String} {r r' : Record V} (h : Alike names r r')
    (hnone : duplicate (r.filter (·.1 ∈ names)) = none) :
    duplicate (r'.filter (·.1 ∈ names)) = none ∧
      ∀ name ∈ names, r'.lookup name = r.lookup name := by
  have hnodup := nodup_of_duplicate hnone
  have hnodup' : ((r'.filter (·.1 ∈ names)).map Prod.fst).Nodup := (h.map _).nodup_iff.mp hnodup
  refine ⟨duplicate_eq_none hnodup', fun name hname => ?_⟩
  rw [← lookup_filter hname r, ← lookup_filter hname r']
  refine Option.ext fun v => ?_
  rw [lookup_eq_some_iff hnodup', lookup_eq_some_iff hnodup]
  exact (h.mem_iff).symm

end Fields
