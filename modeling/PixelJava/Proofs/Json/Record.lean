/-
Reading the fields of a record. What a field of an object holds depends neither on the order of the
fields nor on those with other names; the values that are read nest less deep than the record.
-/
import PixelJava.Json.Record
import Mathlib.Data.List.Perm.Basic

namespace PixelJava.Json

theorem mapM_congr {α β : Type} {f g : α → Option β} {items : List α}
    (h : ∀ item ∈ items, f item = g item) : items.mapM f = items.mapM g := by
  induction items with
  | nil => rfl
  | cons first rest ih =>
    rw [List.mapM_cons, List.mapM_cons, h first List.mem_cons_self,
      ih fun item hitem => h item (List.mem_cons_of_mem _ hitem)]

/-! ## Depth -/

theorem depth_le_depthItems {item : Json} {items : List Json} (h : item ∈ items) :
    item.depth ≤ depthItems items := by
  induction items with
  | nil => cases h
  | cons first rest ih =>
    rw [depthItems]
    rcases List.mem_cons.1 h with rfl | h
    · exact Nat.le_max_left _ _
    · exact Nat.le_trans (ih h) (Nat.le_max_right _ _)

/-- An array is deeper than each of its items. -/
theorem depth_lt_arr {item : Json} {items : List Json} (h : item ∈ items) :
    item.depth < (Json.arr items).depth := by
  have := depth_le_depthItems h
  simp only [depth]
  omega

theorem depth_le_depthFields {field : String × Json} {fields : List (String × Json)}
    (h : field ∈ fields) : field.2.depth ≤ depthFields fields := by
  induction fields with
  | nil => cases h
  | cons first rest ih =>
    obtain ⟨name, value⟩ := first
    rw [depthFields]
    rcases List.mem_cons.1 h with rfl | h
    · exact Nat.le_max_left _ _
    · exact Nat.le_trans (ih h) (Nat.le_max_right _ _)

/-- An object is deeper than each of its fields. -/
theorem depth_lt_obj {field : String × Json} {fields : List (String × Json)} (h : field ∈ fields) :
    field.2.depth < (Json.obj fields).depth := by
  have := depth_le_depthFields h
  simp only [depth]
  omega

theorem depthFields_filter_le (p : String × Json → Bool) (fields : List (String × Json)) :
    depthFields (fields.filter p) ≤ depthFields fields := by
  induction fields with
  | nil => exact Nat.le_refl _
  | cons first rest ih =>
    rw [List.filter_cons]
    split <;> simp only [depthFields] <;> omega

/-- The record of a node nests at most as deep as the node. -/
theorem depth_of_node? {value record : Json} {kind : String} (h : value.node? = some (kind, record)) :
    record.depth ≤ value.depth := by
  unfold node? at h
  split at h
  · rename_i fields
    split at h
    · cases h
      have := depthFields_filter_le (·.1 != kindField) fields
      simp only [depth]
      omega
    · cases h
  · cases h
    simp only [depth, depthItems]
    omega
  · cases h

/-- Only arrays and objects are nodes. -/
theorem node?_of_depth_eq_zero {value : Json} (h : value.depth = 0) : value.node? = none := by
  cases value with
  | obj fields => simp [depth] at h
  | arr items => simp [depth] at h
  | _ => rfl

/-! ## Fields of objects -/

/-- The names of the fields of an object. -/
def names (fields : List (String × Json)) : List String :=
  fields.map Prod.fst

namespace Schema

variable {fields fields' : List (String × Json)} {field : Field} {value : Json}

/-- A field that is left out has its default, if it has one. -/
theorem member_of_notMem (h : field.name ∉ names fields) :
    member fields field = if field.hasDefault then some none else none := by
  have hnil : fields.filter (·.1 == field.name) = [] := by
    rw [List.filter_eq_nil_iff]
    intro p hp he
    exact h (List.mem_map.2 ⟨p, hp, by simpa using he⟩)
  unfold member
  rw [hnil]

theorem member_cons_of_ne {name : String} (h : name ≠ field.name) :
    member ((name, value) :: fields) field = member fields field := by
  unfold member
  rw [List.filter_cons_of_neg (by simpa using h)]

theorem member_cons_self (h : field.name ∉ names fields) :
    member ((field.name, value) :: fields) field = some (some value) := by
  have hnil : fields.filter (·.1 == field.name) = [] := by
    rw [List.filter_eq_nil_iff]
    intro p hp he
    exact h (List.mem_map.2 ⟨p, hp, by simpa using he⟩)
  unfold member
  rw [List.filter_cons_of_pos (by simp), hnil]

/-- A field that is read stands in the object once. -/
theorem member_cons_eq_some_iff {x : Option Json} :
    member ((field.name, value) :: fields) field = some x ↔
      field.name ∉ names fields ∧ x = some value := by
  constructor
  · intro h
    have hnotMem : field.name ∉ names fields := by
      intro hmem
      obtain ⟨p, hp, he⟩ := List.mem_map.1 hmem
      have hpf : p ∈ fields.filter (·.1 == field.name) := List.mem_filter.2 ⟨hp, by simp [he]⟩
      unfold member at h
      rw [List.filter_cons_of_pos (by simp)] at h
      cases hf : fields.filter (·.1 == field.name) with
      | nil => rw [hf] at hpf; cases hpf
      | cons q rest => rw [hf] at h; cases h
    rw [member_cons_self hnotMem] at h
    cases h
    exact ⟨hnotMem, rfl⟩
  · rintro ⟨hnotMem, rfl⟩
    exact member_cons_self hnotMem

/-- The fields of an object are found in any order. -/
theorem member_perm (h : fields.Perm fields') : member fields field = member fields' field := by
  have hp := h.filter (·.1 == field.name)
  unfold member
  generalize fields.filter (·.1 == field.name) = l at hp
  generalize fields'.filter (·.1 == field.name) = l' at hp
  match l, l', hp with
  | [], l', hp => rw [hp.nil_eq]
  | [p], l', hp => rw [List.singleton_perm.1 hp]
  | p :: q :: rest, [], hp => cases hp.eq_nil
  | p :: q :: rest, [r], hp => cases (List.perm_singleton.1 hp)
  | p :: q :: rest, r :: s :: rest', hp => rfl

theorem mem_of_member (h : member fields field = some (some value)) :
    (field.name, value) ∈ fields := by
  unfold member at h
  split at h
  · split at h <;> cases h
  · rename_i name v hf
    cases h
    have hmem : (name, value) ∈ fields.filter (·.1 == field.name) := hf ▸ List.mem_cons_self
    obtain ⟨hmem, hname⟩ := List.mem_filter.1 hmem
    rwa [show name = field.name by simpa using hname] at hmem
  · cases h

theorem lookup_of_member {x : Option Json} (h : member fields field = some x) :
    fields.lookup field.name = x := by
  induction fields with
  | nil =>
    rw [member_of_notMem (by simp [names])] at h
    split at h
    · exact Option.some.inj h
    · cases h
  | cons first rest ih =>
    obtain ⟨name, value⟩ := first
    by_cases hname : name = field.name
    · subst hname
      obtain ⟨-, rfl⟩ := member_cons_eq_some_iff.1 h
      exact List.lookup_cons_self
    · rw [member_cons_of_ne hname] at h
      rw [List.lookup_cons, beq_false_of_ne (Ne.symm hname)]
      exact ih h

/-- A field that has to be there is there if the object is read. -/
theorem isSome_of_member {x : Option Json} (h : member fields field = some x)
    (hfield : field.hasDefault = false) : ∃ value, x = some value := by
  unfold member at h
  rw [hfield] at h
  split at h
  · cases h
  · cases h
    exact ⟨_, rfl⟩
  · cases h

theorem mapM_member_cons_of_notMem {schema : Schema} {name : String}
    (h : name ∉ schema.map Field.name) :
    schema.mapM (member ((name, value) :: fields)) = schema.mapM (member fields) := by
  refine mapM_congr fun field hfield => member_cons_of_ne fun he => ?_
  exact h (he ▸ List.mem_map_of_mem hfield)

/-- An object that has just the fields of the schema is read as its values. -/
theorem read_obj {schema : Schema} (hnames : names fields = schema.map Field.name)
    (hnodup : (schema.map Field.name).Nodup) :
    schema.read (.obj fields) = some (fields.map fun p => some p.2) := by
  show schema.mapM (member fields) = _
  induction schema generalizing fields with
  | nil =>
    cases List.map_eq_nil_iff.1 hnames
    rfl
  | cons field rest ih =>
    obtain ⟨⟨name, value⟩, fields, rfl, rfl, hrest⟩ := List.map_eq_cons_iff.1 hnames
    obtain ⟨hnotMem, hnodup⟩ := List.nodup_cons.1 hnodup
    have hfirst : field.name ∉ names fields := fun hmem => hnotMem (hrest ▸ hmem)
    rw [List.mapM_cons, member_cons_self hfirst, mapM_member_cons_of_notMem hnotMem,
      ih hrest hnodup]
    rfl

theorem length_of_elements {schema : Schema} {values : List Json} {xs : List (Option Json)}
    (h : schema.elements values = some xs) : values.length ≤ schema.length := by
  fun_induction elements schema values generalizing xs with
  | case1 => exact Nat.le_refl _
  | case2 => cases h
  | case3 field rest hdefault ih => exact Nat.zero_le _
  | case4 => exact Nat.zero_le _
  | case5 field rest first values ih =>
    obtain ⟨ys, hys, rfl⟩ := Option.map_eq_some_iff.1 h
    exact Nat.succ_le_succ (ih hys)

/-- An array is read as the object that names its values. -/
theorem elements_eq_mapM_member {schema : Schema} {values : List Json}
    (hlength : values.length ≤ schema.length) (hnodup : (schema.map Field.name).Nodup) :
    schema.elements values = schema.mapM (member ((schema.map Field.name).zip values)) := by
  induction schema generalizing values with
  | nil =>
    cases List.eq_nil_of_length_eq_zero (Nat.le_zero.1 hlength)
    rfl
  | cons field rest ih =>
    obtain ⟨hnotMem, hnodup⟩ := List.nodup_cons.1 hnodup
    cases values with
    | nil =>
      rw [elements, ih (Nat.zero_le _) hnodup, List.mapM_cons, List.zip_nil_right,
        List.zip_nil_right, member_of_notMem (by simp [names])]
      cases field.hasDefault <;> cases rest.mapM (member []) <;> rfl
    | cons value values =>
      have hfirst : field.name ∉ names ((rest.map Field.name).zip values) := fun hmem => by
        obtain ⟨p, hp, he⟩ := List.mem_map.1 hmem
        exact hnotMem (he ▸ (List.of_mem_zip hp).1)
      rw [elements, ih (Nat.le_of_succ_le_succ hlength) hnodup, List.map_cons, List.zip_cons_cons,
        List.mapM_cons, member_cons_self hfirst, mapM_member_cons_of_notMem hnotMem]
      cases rest.mapM (member ((rest.map Field.name).zip values)) <;> rfl

/-! ## Values that are read -/

theorem mem_of_elements {schema : Schema} {values : List Json} {xs : List (Option Json)}
    (h : schema.elements values = some xs) (hmem : some value ∈ xs) : value ∈ values := by
  fun_induction elements schema values generalizing xs with
  | case1 => cases h; cases hmem
  | case2 => cases h
  | case3 field rest hdefault ih =>
    obtain ⟨ys, hys, rfl⟩ := Option.map_eq_some_iff.1 h
    rcases List.mem_cons.1 hmem with hmem | hmem
    · cases hmem
    · exact ih hys hmem
  | case4 => cases h
  | case5 field rest first values ih =>
    obtain ⟨ys, hys, rfl⟩ := Option.map_eq_some_iff.1 h
    rcases List.mem_cons.1 hmem with hmem | hmem
    · cases hmem
      exact List.mem_cons_self
    · exact List.mem_cons_of_mem _ (ih hys hmem)

theorem mem_of_mapM_member {schema : Schema} {xs : List (Option Json)}
    (h : schema.mapM (member fields) = some xs) (hmem : some value ∈ xs) :
    ∃ name, (name, value) ∈ fields := by
  induction schema generalizing xs with
  | nil => cases h; cases hmem
  | cons field rest ih =>
    simp only [List.mapM_cons, Option.bind_eq_bind, Option.bind_eq_some_iff] at h
    obtain ⟨x, hx, ys, hys, he⟩ := h
    cases he
    rcases List.mem_cons.1 hmem with rfl | hmem
    · exact ⟨_, mem_of_member hx⟩
    · exact ih hys hmem

/-- What is read of a record nests less deep than the record. -/
theorem depth_of_read {schema : Schema} {record : Json} {xs : List (Option Json)}
    (h : schema.read record = some xs) (hmem : some value ∈ xs) : value.depth < record.depth := by
  unfold read at h
  split at h
  · obtain ⟨name, hfield⟩ := mem_of_mapM_member h hmem
    exact depth_lt_obj hfield
  · exact depth_lt_arr (mem_of_elements h hmem)
  · cases h

end Schema

/-! ## Kinds -/

theorem filter_kind_of_notMem {fields : List (String × Json)} (h : kindField ∉ names fields) :
    fields.filter (·.1 == kindField) = [] ∧ fields.filter (·.1 != kindField) = fields := by
  have hne : ∀ p ∈ fields, p.1 ≠ kindField := fun p hp he => h (List.mem_map.2 ⟨p, hp, he⟩)
  constructor
  · rw [List.filter_eq_nil_iff]
    intro p hp
    simpa using hne p hp
  · rw [List.filter_eq_self]
    intro p hp
    simpa using hne p hp

theorem Schema.member_filter_kind {fields : List (String × Json)} {field : Field}
    (h : field.name ≠ kindField) :
    member (fields.filter (·.1 != kindField)) field = member fields field := by
  unfold member
  rw [List.filter_filter]
  congr 1
  refine List.filter_congr fun p _ => ?_
  by_cases hp : p.1 = field.name <;> simp [hp, h]

/-- The kind of an object is what its `kind` field holds. -/
theorem node?_obj_eq_some_iff {fields : List (String × Json)} {kind : String} {record : Json} :
    node? (.obj fields) = some (kind, record) ↔
      Schema.member fields (required kindField) = some (some (.str kind)) ∧
        record = .obj (fields.filter (·.1 != kindField)) := by
  simp only [node?, Schema.member, required]
  generalize fields.filter (·.1 == kindField) = found
  rcases found with _ | ⟨⟨name, value⟩, _ | ⟨second, rest⟩⟩
  · simp
  · cases value <;> simp [eq_comm]
  · simp

/-- The kind of an array is its first item, and the record is what is left. -/
theorem node?_arr_eq_some_iff {values : List Json} {kind : String} {record : Json} :
    node? (.arr values) = some (kind, record) ↔
      ∃ rest, values = .str kind :: rest ∧ record = .arr rest := by
  simp only [node?]
  rcases values with _ | ⟨value, rest⟩
  · simp
  · cases value <;> simp [eq_comm]

theorem node?_cons {fields : List (String × Json)} (kind : String) (h : kindField ∉ names fields) :
    node? (.obj ((kindField, .str kind) :: fields)) = some (kind, .obj fields) := by
  obtain ⟨hnone, hall⟩ := filter_kind_of_notMem h
  simp [node?, hnone, hall]

end PixelJava.Json
