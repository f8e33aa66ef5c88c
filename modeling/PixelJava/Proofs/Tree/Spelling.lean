/-
The spellings of a program. Fields of an object may be moved, unknown ones put in, those with their
default left out or written as `null`, and an object may be an array of its fields. `Respells` has
one rule for each of these and one for each place inside a value, and reading a value respelled any
number of times gives the program that reading it gave before.
-/
import PixelJava.Proofs.Tree.RoundTrip
import Mathlib.Data.List.Nodup
import Mathlib.Logic.Relation

namespace PixelJava

open Json

/-! ## Layouts -/

/-- The record with its kind as the first slot. -/
def Record.withKind {α : Type} (r : Record α) : Record α where
  slots := .required kindField .text :: r.slots
  make _ := r.make

/-- The record that a value is written as; that of a node depends on its kind, and holds it. -/
def Form.layout? (f : Form) (value : Json) : Option (Record f.Value) :=
  match f.record? none with
  | some r => some r
  | none => value.node?.bind fun (kind, _) => (f.record? (some kind)).map Record.withKind

/-- A value is laid out as its form, or as the kind of node that it names. -/
theorem Form.layout?_cases {f : Form} {value : Json} {r : Record f.Value}
    (h : f.layout? value = some r) :
    f.record? none = some r ∨ ∃ kind record inner, f.record? none = none ∧
      value.node? = some (kind, record) ∧ f.record? (some kind) = some inner ∧
        r = inner.withKind := by
  unfold layout? at h
  split at h
  · rename_i hrecord
    cases h
    exact .inl hrecord
  · rename_i hrecord
    obtain ⟨⟨kind, record⟩, hnode, h⟩ := Option.bind_eq_some_iff.1 h
    obtain ⟨inner, hinner, rfl⟩ := Option.map_eq_some_iff.1 h
    exact .inr ⟨kind, record, inner, hrecord, hnode, hinner, rfl⟩

/-- No two fields of a layout have the same name. -/
theorem Form.nodup_layout? {f : Form} {value : Json} {r : Record f.Value}
    (h : f.layout? value = some r) : (r.slots.map Slot.name).Nodup := by
  obtain hrecord | ⟨kind, record, inner, -, -, hinner, rfl⟩ := Form.layout?_cases h
  · exact (List.nodup_cons.1 (Form.nodup_names hrecord)).2
  · exact Form.nodup_names hinner

/-- Reading the kind as a field of its own changes nothing. -/
theorem Record.read_withKind {α : Type} {r : Record α} (hkind : kindField ∉ r.slots.map Slot.name)
    {value record : Json} {kind : String} (h : value.node? = some (kind, record)) :
    r.withKind.read Form.read value = r.read Form.read record := by
  have hread : r.withKind.schema.read value =
      (r.schema.read record).map (some (.str kind) :: ·) := by
    cases value with
    | obj fields =>
      obtain ⟨hmember, rfl⟩ := node?_obj_eq_some_iff.1 h
      have hrest : r.schema.mapM (Schema.member (fields.filter (·.1 != kindField))) =
          r.schema.mapM (Schema.member fields) := by
        refine mapM_congr fun field hfield => Schema.member_filter_kind fun he => hkind ?_
        obtain ⟨s, hs, rfl⟩ := List.mem_map.1 hfield
        exact List.mem_map.2 ⟨s, hs, he⟩
      show (required kindField :: r.schema).mapM (Schema.member fields) = Option.map _ (r.schema.mapM _)
      rw [List.mapM_cons, hmember, hrest]
      cases r.schema.mapM (Schema.member fields) <;> rfl
    | arr values =>
      obtain ⟨rest, rfl, rfl⟩ := node?_arr_eq_some_iff.1 h
      rfl
    | _ => cases h
  rw [Record.read, hread, Record.read]
  cases r.schema.read record <;> rfl

/-- A value is read as its layout. -/
theorem Form.read_of_layout? {f : Form} {value : Json} {r : Record f.Value}
    (h : f.layout? value = some r) : f.read value = r.read Form.read value := by
  obtain hrecord | ⟨kind, record, inner, -, hnode, hinner, rfl⟩ := Form.layout?_cases h
  · exact Form.read_of_record? hrecord value
  · have hkind := (List.nodup_cons.1 (Form.nodup_names hinner)).1
    rw [Record.read_withKind hkind hnode, Form.read_of_record?_kind hinner, readNode_of_node? hnode,
      hinner, Option.bind_some]

/-! ## Respelling -/

namespace Content

/-- The value that is written where nothing is left out. -/
def default : Content → Json
  | .required _ | .optional _ => .null
  | .span => Span.zero.toJson
  | .items _ => .arr []

/-- Whether a value says the same as leaving it out. -/
def IsDefault : Content → Json → Prop
  | .required _, _ => False
  | .optional _, value => value = .null
  | .span, value => Span.ofJson? value = some .zero
  | .items _, value => value = .arr []

end Content

namespace Slot

/-- The value that an object has for a slot, its default if the object has none. -/
def valueIn (fields : List (String × Json)) (s : Slot) : Json :=
  (fields.lookup s.name).getD s.content.default

/-- Whether an object says no more about a slot than its default. -/
def IsDefaultIn (fields : List (String × Json)) (s : Slot) : Prop :=
  s.content.hasDefault = true ∧ ∀ value, fields.lookup s.name = some value → s.content.IsDefault value

end Slot

/-- A value written in another way, for what stands at a place of the given form. The rules for
objects name the first field; `permute` takes any field there and back. -/
inductive Respells : Form → Json → Json → Prop
  /-- The fields in another order. -/
  | permute {f : Form} {r : Record f.Value} {fields fields' : List (String × Json)} :
    f.layout? (.obj fields) = some r → fields.Perm fields' → Respells f (.obj fields) (.obj fields')
  /-- A field that the record does not know. -/
  | add {f : Form} {r : Record f.Value} {fields : List (String × Json)} {name : String}
    (value : Json) : f.layout? (.obj fields) = some r → name ∉ r.slots.map Slot.name →
      Respells f (.obj fields) (.obj ((name, value) :: fields))
  /-- A field left out that holds its default. -/
  | drop {f : Form} {r : Record f.Value} {fields : List (String × Json)} (s : Slot) {value : Json} :
    f.layout? (.obj ((s.name, value) :: fields)) = some r → s ∈ r.slots →
      s.content.IsDefault value → Respells f (.obj ((s.name, value) :: fields)) (.obj fields)
  /-- A field that may be absent, and is, written as `null`. -/
  | null {f : Form} {r : Record f.Value} {fields : List (String × Json)} {name : String}
    {form : Form} : f.layout? (.obj fields) = some r → .optional name form ∈ r.slots →
      name ∉ names fields → Respells f (.obj fields) (.obj ((name, .null) :: fields))
  /-- The first `count` fields in the order of their declaration, the others at their defaults. -/
  | array {f : Form} {r : Record f.Value} {fields : List (String × Json)} (count : Nat) :
    f.layout? (.obj fields) = some r → (∀ s ∈ r.slots.drop count, s.IsDefaultIn fields) →
      Respells f (.obj fields) (.arr ((r.slots.take count).map (Slot.valueIn fields)))
  /-- The last field of an array left off, where it holds its default. -/
  | dropLast {f : Form} {r : Record f.Value} {values : List Json} {s : Slot} {value : Json} :
    f.layout? (.arr (values ++ [value])) = some r → r.slots[values.length]? = some s →
      s.content.IsDefault value → Respells f (.arr (values ++ [value])) (.arr values)
  /-- The next field of an array, where it may be absent, written as `null`. -/
  | nullLast {f : Form} {r : Record f.Value} {values : List Json} {name : String} {form : Form} :
    f.layout? (.arr values) = some r → r.slots[values.length]? = some (.optional name form) →
      Respells f (.arr values) (.arr (values ++ [.null]))
  /-- The value of a field respelled. -/
  | field {f : Form} {r : Record f.Value} {fields : List (String × Json)} (s : Slot)
    {value value' : Json} : f.layout? (.obj ((s.name, value) :: fields)) = some r → s ∈ r.slots →
      Respells s.content.form value value' →
        Respells f (.obj ((s.name, value) :: fields)) (.obj ((s.name, value') :: fields))
  /-- A field of an array respelled. -/
  | element {f : Form} {r : Record f.Value} (before after : List Json) {s : Slot}
    {value value' : Json} : f.layout? (.arr (before ++ value :: after)) = some r →
      r.slots[before.length]? = some s → Respells s.content.form value value' →
        Respells f (.arr (before ++ value :: after)) (.arr (before ++ value' :: after))
  /-- An item of a list respelled. -/
  | item {f : Form} (before after : List Json) {value value' : Json} : Respells f value value' →
      Respells (.list f) (.arr (before ++ value :: after)) (.arr (before ++ value' :: after))

/-! ## Slots of objects -/

namespace Content

/-- Whether a slot that was read with one value is read as the same with the other. -/
def Keeps (c : Content) (x x' : Option Json) : Prop :=
  ∀ y, c.read Form.read x = some y → c.read Form.read x' = some y

theorem Keeps.refl (c : Content) (x : Option Json) : c.Keeps x x :=
  fun _ h => h

theorem Keeps.trans {c : Content} {x x' x'' : Option Json} (h : c.Keeps x x')
    (h' : c.Keeps x' x'') : c.Keeps x x'' :=
  fun y hy => h' y (h y hy)

/-- A default that is written out is read as one that is left out. -/
theorem read_of_isDefault {c : Content} {value : Json} (h : c.IsDefault value) :
    c.read Form.read (some value) = c.read Form.read none := by
  cases c with
  | required form => cases h
  | optional form => cases h; rfl
  | span => exact h
  | items item => cases h; rfl

theorem hasDefault_of_isDefault {c : Content} {value : Json} (h : c.IsDefault value) :
    c.hasDefault = true := by
  cases c with
  | required form => cases h
  | _ => rfl

theorem isDefault_default {c : Content} (h : c.hasDefault = true) : c.IsDefault c.default := by
  cases c with
  | required form => cases h
  | optional form => rfl
  | span => exact Span.ofJson?_toJson .zero
  | items item => rfl

end Content

namespace Slot

variable (s : Slot) {fields : List (String × Json)}

theorem member_of_notMem (h : s.name ∉ names fields) (hdefault : s.content.hasDefault = true) :
    Schema.member fields s.field = some none :=
  (Schema.member_of_notMem h).trans (if_pos hdefault)

theorem member_cons_iff {value : Json} {x : Option Json} :
    Schema.member ((s.name, value) :: fields) s.field = some x ↔
      s.name ∉ names fields ∧ x = some value :=
  Schema.member_cons_eq_some_iff

theorem member_map {slots : List Slot} {g : Slot → Json} (hs : s ∈ slots)
    (hnodup : (slots.map Slot.name).Nodup) :
    Schema.member (slots.map fun s => (s.name, g s)) s.field = some (some (g s)) := by
  induction slots with
  | nil => cases hs
  | cons first rest ih =>
    obtain ⟨hnotMem, hrest⟩ := List.nodup_cons.1 hnodup
    rw [List.map_cons]
    rcases List.mem_cons.1 hs with rfl | hs
    · refine s.member_cons_iff.2 ⟨fun hmem => hnotMem ?_, rfl⟩
      rwa [names, List.map_map] at hmem
    · have hne : first.name ≠ s.field.name := fun he => hnotMem (he ▸ List.mem_map_of_mem hs)
      rw [Schema.member_cons_of_ne hne, ih hs hrest]

/-- A field that is left out can be written out with its default. -/
theorem keeps_valueIn {x : Option Json} (h : Schema.member fields s.field = some x) :
    s.content.Keeps x (some (s.valueIn fields)) := by
  have hlookup : fields.lookup s.name = x := Schema.lookup_of_member h
  rw [valueIn, hlookup]
  cases x with
  | some value => exact .refl _ _
  | none =>
    have hdefault : s.content.hasDefault = true := by
      by_contra hno
      obtain ⟨value, hvalue⟩ := Schema.isSome_of_member h (Bool.eq_false_iff.2 hno)
      cases hvalue
    exact fun y hy => (Content.read_of_isDefault (Content.isDefault_default hdefault)).trans hy

/-- A field that has its default can be left out. -/
theorem keeps_none {x : Option Json} (h : Schema.member fields s.field = some x)
    (hvalue : ∀ value, fields.lookup s.name = some value → s.content.IsDefault value) :
    s.content.Keeps x none := by
  have hlookup : fields.lookup s.name = x := Schema.lookup_of_member h
  cases x with
  | some value => exact fun y hy => Content.read_of_isDefault (hvalue value hlookup) ▸ hy
  | none => exact .refl _ _

end Slot

/-- Whether every slot that was read in one object is read as the same in the other. -/
def Record.Carries {α : Type} (r : Record α) (fields fields' : List (String × Json)) : Prop :=
  ∀ s ∈ r.slots, ∀ x, Schema.member fields s.field = some x →
    ∃ x', Schema.member fields' s.field = some x' ∧ s.content.Keeps x x'

/-- A record is read alike from fields that carry over slot by slot. -/
theorem readInto_of_carries {α : Type} {slots : List Slot} {make : Maker α slots}
    {fields fields' : List (String × Json)}
    (h : ∀ s ∈ slots, ∀ x, Schema.member fields s.field = some x →
      ∃ x', Schema.member fields' s.field = some x' ∧ s.content.Keeps x x') {a : α}
    (ha : ((slots.map Slot.field).mapM (Schema.member fields)).bind
      (readInto Form.read slots make) = some a) :
    ((slots.map Slot.field).mapM (Schema.member fields')).bind
      (readInto Form.read slots make) = some a := by
  induction slots with
  | nil => exact ha
  | cons s rest ih =>
    rw [List.map_cons, List.mapM_cons] at ha ⊢
    obtain ⟨_, hread, hinto⟩ := Option.bind_eq_some_iff.1 ha
    obtain ⟨x, hx, hread⟩ := Option.bind_eq_some_iff.1 hread
    obtain ⟨xs, hxs, he⟩ := Option.bind_eq_some_iff.1 hread
    cases he
    obtain ⟨y, hy, hinto⟩ := Option.bind_eq_some_iff.1 hinto
    obtain ⟨x', hx', hkeeps⟩ := h s List.mem_cons_self x hx
    have hrest : (((rest.map Slot.field).mapM (Schema.member fields)).bind
        (readInto Form.read rest (make y))) = some a := by
      rw [hxs]
      exact hinto
    replace hrest := ih (fun s' hs' => h s' (List.mem_cons_of_mem _ hs')) hrest
    obtain ⟨xs', hxs', ha'⟩ := Option.bind_eq_some_iff.1 hrest
    rw [hx', hxs']
    show (s.content.read Form.read x').bind _ = some a
    rw [hkeeps y hy]
    exact ha'

namespace Record.Carries

variable {α : Type} {r : Record α} {fields fields' fields'' : List (String × Json)}

theorem trans (h : r.Carries fields fields') (h' : r.Carries fields' fields'') :
    r.Carries fields fields'' := by
  intro s hs x hx
  obtain ⟨x', hx', hkeeps⟩ := h s hs x hx
  obtain ⟨x'', hx'', hkeeps'⟩ := h' s hs x' hx'
  exact ⟨x'', hx'', hkeeps.trans hkeeps'⟩

/-- The order of fields does not matter. -/
theorem perm (h : fields.Perm fields') : r.Carries fields fields' :=
  fun _ _ x hx => ⟨x, Schema.member_perm h ▸ hx, .refl _ x⟩

/-- A field that the record does not have does not matter. -/
theorem add {name : String} (value : Json) (h : name ∉ r.slots.map Slot.name) :
    r.Carries fields ((name, value) :: fields) := by
  intro s hs x hx
  have hne : name ≠ s.field.name := fun he => h (he ▸ List.mem_map_of_mem hs)
  exact ⟨x, (Schema.member_cons_of_ne hne).trans hx, .refl _ x⟩

/-- A field with its default may be left out. -/
theorem drop (hnodup : (r.slots.map Slot.name).Nodup) {s : Slot} (hs : s ∈ r.slots) {value : Json}
    (hvalue : s.content.IsDefault value) : r.Carries ((s.name, value) :: fields) fields := by
  intro s' hs' x hx
  by_cases hname : s.name = s'.name
  · obtain rfl := List.inj_on_of_nodup_map hnodup hs hs' hname
    obtain ⟨hnotMem, rfl⟩ := s.member_cons_iff.1 hx
    exact ⟨none, s.member_of_notMem hnotMem (Content.hasDefault_of_isDefault hvalue),
      fun y hy => Content.read_of_isDefault hvalue ▸ hy⟩
  · exact ⟨x, (Schema.member_cons_of_ne hname).symm.trans hx, .refl _ x⟩

/-- A field that may be missing may be null. -/
theorem null (hnodup : (r.slots.map Slot.name).Nodup) {name : String} {form : Form}
    (hs : .optional name form ∈ r.slots) (hname : name ∉ names fields) :
    r.Carries fields ((name, .null) :: fields) := by
  intro s' hs' x hx
  by_cases hne : name = s'.name
  · obtain rfl := List.inj_on_of_nodup_map hnodup hs hs' hne
    rw [Slot.member_of_notMem _ hname rfl] at hx
    cases hx
    exact ⟨some .null, (Slot.member_cons_iff _).2 ⟨hname, rfl⟩, fun y hy => hy⟩
  · exact ⟨x, (Schema.member_cons_of_ne hne).trans hx, .refl _ x⟩

theorem field (hnodup : (r.slots.map Slot.name).Nodup) {s : Slot} (hs : s ∈ r.slots)
    {value value' : Json} (hvalue : s.content.Keeps (some value) (some value')) :
    r.Carries ((s.name, value) :: fields) ((s.name, value') :: fields) := by
  intro s' hs' x hx
  by_cases hname : s.name = s'.name
  · obtain rfl := List.inj_on_of_nodup_map hnodup hs hs' hname
    obtain ⟨hnotMem, rfl⟩ := s.member_cons_iff.1 hx
    exact ⟨some value', s.member_cons_iff.2 ⟨hnotMem, rfl⟩, hvalue⟩
  · rw [Schema.member_cons_of_ne hname] at hx
    exact ⟨x, (Schema.member_cons_of_ne hname).trans hx, .refl _ x⟩

/-- Fields may be left out from the end if they have their defaults. -/
theorem take (hnodup : (r.slots.map Slot.name).Nodup) {count : Nat}
    (h : ∀ s ∈ r.slots.drop count, s.IsDefaultIn fields) :
    r.Carries fields ((r.slots.take count).map fun s => (s.name, s.valueIn fields)) := by
  intro s hs x hx
  rw [← List.take_append_drop count r.slots] at hs hnodup
  rw [List.map_append] at hnodup
  obtain ⟨htake, -, hdisjoint⟩ := List.nodup_append.1 hnodup
  rcases List.mem_append.1 hs with hs | hs
  · refine ⟨some (s.valueIn fields), s.member_map hs htake, ?_⟩
    exact s.keeps_valueIn hx
  · have hnotMem : s.name ∉ names ((r.slots.take count).map fun s => (s.name, s.valueIn fields)) := by
      intro hmem
      rw [names, List.map_map] at hmem
      exact hdisjoint _ hmem _ (List.mem_map_of_mem hs) rfl
    obtain ⟨hdefault, hvalue⟩ := h s hs
    exact ⟨none, s.member_of_notMem hnotMem hdefault, s.keeps_none hx hvalue⟩

end Record.Carries

/-! ## Arrays as objects -/

/-- The fields of a value that is written as a record. -/
def Record.fields {α : Type} (r : Record α) : Json → List (String × Json)
  | .obj fields => fields
  | .arr values => (r.slots.map Slot.name).zip values
  | _ => []

/-- Whether a value has no more than the fields of a record. -/
def Record.Fits {α : Type} (r : Record α) : Json → Prop
  | .obj _ => True
  | .arr values => values.length ≤ r.slots.length
  | _ => False

/-- An array is read as the object that it stands for. -/
theorem Record.read_eq_read_fields {α : Type} {r : Record α} {value : Json}
    (hnodup : (r.slots.map Slot.name).Nodup) (h : r.Fits value) :
    r.read Form.read value = r.read Form.read (.obj (r.fields value)) := by
  cases value with
  | obj fields => rfl
  | arr values =>
    have hschema : r.schema.map Field.name = r.slots.map Slot.name := List.map_map
    have hlength : values.length ≤ r.schema.length := by
      rw [Record.schema, List.length_map]
      exact h
    have helements := Schema.elements_eq_mapM_member hlength (hschema ▸ hnodup)
    rw [hschema] at helements
    exact congrArg (fun xs => Option.bind xs (readInto Form.read r.slots r.make)) helements
  | _ => cases h

/-- Only what fits a record is read as one. -/
theorem Record.fits_of_read {α : Type} {r : Record α} {value : Json} {a : α}
    (h : r.read Form.read value = some a) : r.Fits value := by
  obtain ⟨xs, hxs, -⟩ := Option.bind_eq_some_iff.1 h
  cases value with
  | obj fields => trivial
  | arr values =>
    have hlength := Schema.length_of_elements hxs
    rwa [Record.schema, List.length_map] at hlength
  | _ => cases hxs

theorem Record.exists_split {α : Type} {r : Record α} {n : Nat} {s : Slot}
    (h : r.slots[n]? = some s) : ∃ pre post, r.slots = pre ++ s :: post ∧ pre.length = n := by
  obtain ⟨hlength, hs⟩ := List.getElem?_eq_some_iff.1 h
  refine ⟨r.slots.take n, r.slots.drop (n + 1), ?_, ?_⟩
  · rw [← hs, List.getElem_cons_drop, List.take_append_drop]
  · rw [List.length_take, Nat.min_eq_left (Nat.le_of_lt hlength)]

section

variable {α : Type} {r : Record α} {pre post : List Slot} {before : List Json}

/-- An array names its values by the first slots. -/
theorem Record.fields_of_append (hslots : r.slots = pre ++ post)
    (hlength : pre.length = before.length) :
    r.fields (.arr before) = (pre.map Slot.name).zip before := by
  have hzip : (pre.map Slot.name ++ post.map Slot.name).zip (before ++ []) =
      (pre.map Slot.name).zip before ++ (post.map Slot.name).zip [] :=
    List.zip_append (by rw [List.length_map, hlength])
  rwa [← List.map_append, ← hslots, List.zip_nil_right, List.append_nil, List.append_nil] at hzip

theorem Record.fields_append {s : Slot} (hslots : r.slots = pre ++ s :: post)
    (hlength : pre.length = before.length) (value : Json) (after : List Json) :
    r.fields (.arr (before ++ value :: after)) =
      r.fields (.arr before) ++ (s.name, value) :: (post.map Slot.name).zip after := by
  have hpre : (pre.map Slot.name).length = before.length := by rw [List.length_map, hlength]
  rw [Record.fields_of_append hslots hlength, Record.fields, hslots, List.map_append,
    List.zip_append hpre, List.map_cons, List.zip_cons_cons]

end

theorem Record.fits_take {α : Type} (r : Record α) (count : Nat) (value : Slot → Json) :
    r.Fits (.arr ((r.slots.take count).map value)) := by
  rw [Fits, List.length_map]
  exact List.length_take_le' ..

theorem Record.fits_of_getElem? {α : Type} {r : Record α} {values : List Json} {s : Slot}
    (h : r.slots[values.length]? = some s) :
    r.Fits (.arr values) ∧ ∀ value, r.Fits (.arr (values ++ [value])) := by
  obtain ⟨hlength, -⟩ := List.getElem?_eq_some_iff.1 h
  refine ⟨Nat.le_of_lt hlength, fun value => ?_⟩
  rw [Fits, List.length_append]
  exact hlength

theorem Record.fits_replace {α : Type} {r : Record α} {before after : List Json} {value : Json}
    (h : r.Fits (.arr (before ++ value :: after))) (value' : Json) :
    r.Fits (.arr (before ++ value' :: after)) := by
  rw [Fits, List.length_append, List.length_cons] at h ⊢
  exact h

namespace Record.Carries

variable {α : Type} {r : Record α}

theorem array (hnodup : (r.slots.map Slot.name).Nodup) {fields : List (String × Json)}
    {count : Nat} (h : ∀ s ∈ r.slots.drop count, s.IsDefaultIn fields) :
    r.Carries fields (r.fields (.arr ((r.slots.take count).map (Slot.valueIn fields)))) := by
  rw [Record.fields_of_append (List.take_append_drop count r.slots).symm (List.length_map _).symm,
    List.zip_map']
  exact .take hnodup h

/-- A last item with its default may be left out. -/
theorem dropLast (hnodup : (r.slots.map Slot.name).Nodup) {values : List Json} {s : Slot}
    {value : Json} (hs : r.slots[values.length]? = some s) (hvalue : s.content.IsDefault value) :
    r.Carries (r.fields (.arr (values ++ [value]))) (r.fields (.arr values)) := by
  obtain ⟨pre, post, hslots, hlength⟩ := Record.exists_split hs
  rw [Record.fields_append hslots hlength, List.zip_nil_right]
  exact (perm (List.perm_append_singleton ..)).trans
    (.drop hnodup (List.mem_of_getElem? hs) hvalue)

theorem nullLast (hnodup : (r.slots.map Slot.name).Nodup) {values : List Json} {name : String}
    {form : Form} (hs : r.slots[values.length]? = some (.optional name form)) :
    r.Carries (r.fields (.arr values)) (r.fields (.arr (values ++ [.null]))) := by
  obtain ⟨pre, post, hslots, hlength⟩ := Record.exists_split hs
  have hname : name ∉ names (r.fields (.arr values)) := by
    rw [Record.fields_of_append hslots hlength]
    intro hmem
    obtain ⟨p, hp, rfl⟩ := List.mem_map.1 hmem
    rw [hslots, List.map_append] at hnodup
    exact (List.nodup_append.1 hnodup).2.2 _ (List.of_mem_zip hp).1 _ List.mem_cons_self rfl
  rw [Record.fields_append hslots hlength, List.zip_nil_right]
  exact (null hnodup (List.mem_of_getElem? hs) hname).trans
    (.perm (List.perm_append_singleton ..).symm)

/-- An item may be spelled in another way. -/
theorem element (hnodup : (r.slots.map Slot.name).Nodup) {before after : List Json} {s : Slot}
    {value value' : Json} (hs : r.slots[before.length]? = some s)
    (hvalue : s.content.Keeps (some value) (some value')) :
    r.Carries (r.fields (.arr (before ++ value :: after)))
      (r.fields (.arr (before ++ value' :: after))) := by
  obtain ⟨pre, post, hslots, hlength⟩ := Record.exists_split hs
  rw [Record.fields_append hslots hlength, Record.fields_append hslots hlength]
  exact (perm List.perm_middle).trans
    ((field hnodup (List.mem_of_getElem? hs) hvalue).trans (.perm List.perm_middle.symm))

end Record.Carries

theorem Record.fields_withKind {α : Type} (r : Record α) (value : Json) (values : List Json) :
    r.withKind.fields (.arr (value :: values)) = (kindField, value) :: r.fields (.arr values) :=
  rfl

theorem Record.names_fields_subset {α : Type} (r : Record α) (values : List Json) :
    names (r.fields (.arr values)) ⊆ r.slots.map Slot.name := by
  intro name hname
  obtain ⟨p, hp, rfl⟩ := List.mem_map.1 hname
  exact (List.of_mem_zip hp).1

theorem Form.layout?_of_record? {f : Form} {r : Record f.Value} (h : f.record? none = some r)
    (value : Json) : f.layout? value = some r := by
  rw [layout?, h]

theorem Form.layout?_of_node? {f : Form} {value record : Json} {kind : String}
    {r : Record f.Value} (hrecord : f.record? none = none) (hnode : value.node? = some (kind, record))
    (h : f.record? (some kind) = some r) : f.layout? value = some r.withKind := by
  rw [layout?, hrecord, hnode]
  show (f.record? (some kind)).map _ = _
  rw [h]
  rfl

/-- Which layout a value has depends on its fields alone. -/
theorem Form.layout?_fields {f : Form} {value : Json} {r : Record f.Value} (h : r.Fits value) :
    f.layout? value = some r ↔ f.layout? (.obj (r.fields value)) = some r := by
  cases value with
  | obj fields => exact Iff.rfl
  | arr values =>
    constructor
    · intro hr
      obtain hrecord | ⟨kind, record, inner, hrecord, hnode, hinner, rfl⟩ := Form.layout?_cases hr
      · exact Form.layout?_of_record? hrecord _
      · obtain ⟨rest, rfl, rfl⟩ := node?_arr_eq_some_iff.1 hnode
        have hkind : kindField ∉ names (inner.fields (.arr rest)) := fun hmem =>
          (List.nodup_cons.1 (Form.nodup_names hinner)).1 (inner.names_fields_subset rest hmem)
        rw [Record.fields_withKind]
        exact Form.layout?_of_node? hrecord (node?_cons kind hkind) hinner
    · intro hr
      obtain hrecord | ⟨kind, record, inner, hrecord, hnode, hinner, rfl⟩ := Form.layout?_cases hr
      · exact Form.layout?_of_record? hrecord _
      · obtain ⟨hmember, -⟩ := node?_obj_eq_some_iff.1 hnode
        cases values with
        | nil => cases hmember
        | cons value rest =>
          rw [Record.fields_withKind] at hmember
          obtain ⟨-, hvalue⟩ := (Slot.required kindField .text).member_cons_iff.1 hmember
          cases hvalue
          exact Form.layout?_of_node? hrecord (node?_arr_eq_some_iff.2 ⟨rest, rfl, rfl⟩) hinner
  | _ => cases h

theorem Form.layout?_of_carries {f : Form} {fields fields' : List (String × Json)}
    {r : Record f.Value} (h : f.layout? (.obj fields) = some r) (hc : r.Carries fields fields') :
    f.layout? (.obj fields') = some r := by
  obtain hrecord | ⟨kind, record, inner, hrecord, hnode, hinner, rfl⟩ := Form.layout?_cases h
  · exact Form.layout?_of_record? hrecord _
  · obtain ⟨hmember, -⟩ := node?_obj_eq_some_iff.1 hnode
    obtain ⟨x', hx', hkeeps⟩ := hc _ List.mem_cons_self _ hmember
    have hkind : x'.bind string? = some kind := hkeeps kind rfl
    obtain ⟨value, rfl, hvalue⟩ := Option.bind_eq_some_iff.1 hkind
    cases value with
    | str s =>
      cases hvalue
      exact Form.layout?_of_node? hrecord (node?_obj_eq_some_iff.2 ⟨hx', rfl⟩) hinner
    | _ => cases hvalue

/-- A value that is read is read as the same when another carries all its fields. -/
theorem Form.read_of_carries {f : Form} {value value' : Json} {r : Record f.Value}
    (h : f.layout? value = some r) (hfits : r.Fits value')
    (hc : r.Carries (r.fields value) (r.fields value')) {a : f.Value}
    (ha : f.read value = some a) : f.read value' = some a := by
  have hnodup := Form.nodup_layout? h
  rw [Form.read_of_layout? h] at ha
  have hfits₀ := Record.fits_of_read ha
  have h' := (Form.layout?_fields hfits).2
    (Form.layout?_of_carries ((Form.layout?_fields hfits₀).1 h) hc)
  rw [Record.read_eq_read_fields hnodup hfits₀] at ha
  rw [Form.read_of_layout? h', Record.read_eq_read_fields hnodup hfits]
  exact readInto_of_carries hc ha

/-- Objects whose fields carry over are read alike. -/
theorem Form.read_obj_of_carries {f : Form} {fields fields' : List (String × Json)}
    {r : Record f.Value} (h : f.layout? (.obj fields) = some r) (hc : r.Carries fields fields')
    {a : f.Value} (ha : f.read (.obj fields) = some a) : f.read (.obj fields') = some a :=
  have hfits : r.Fits (.obj fields') := trivial
  Form.read_of_carries h hfits hc ha

/-! ## Reading what is respelled -/

theorem Respells.ne_null {f : Form} {value value' : Json} (h : Respells f value value') :
    value ≠ .null ∧ value' ≠ .null := by
  cases h <;> exact ⟨Json.noConfusion, Json.noConfusion⟩

theorem Content.keeps_of_form {c : Content} {value value' : Json}
    (hvalue : value ≠ .null) (hvalue' : value' ≠ .null)
    (h : ∀ a, c.form.read value = some a → c.form.read value' = some a) :
    c.Keeps (some value) (some value') := by
  cases c with
  | required form => exact h
  | span => exact h
  | items item => exact h
  | optional form =>
    have hsome (v : Json) (hv : v ≠ .null) :
        optional? (Form.read form) (some v) = (form.read v).map some := by
      cases v with
      | null => cases hv rfl
      | _ => rfl
    intro y hy
    obtain ⟨a, ha, rfl⟩ := Option.map_eq_some_iff.1 ((hsome value hvalue).symm.trans hy)
    exact (hsome value' hvalue').trans (congrArg (Option.map some) (h a ha))

theorem mapM_replace {α : Type} {read : Json → Option α} {value value' : Json}
    (h : ∀ a, read value = some a → read value' = some a) {before after : List Json} {as : List α}
    (has : (before ++ value :: after).mapM read = some as) :
    (before ++ value' :: after).mapM read = some as := by
  rw [List.mapM_append, List.mapM_cons] at has ⊢
  obtain ⟨xs, hxs, has⟩ := Option.bind_eq_some_iff.1 has
  obtain ⟨ys, hys, has⟩ := Option.bind_eq_some_iff.1 has
  obtain ⟨a, ha, hys⟩ := Option.bind_eq_some_iff.1 hys
  rw [hxs, h a ha]
  exact Option.bind_eq_some_iff.2 ⟨xs, rfl, Option.bind_eq_some_iff.2 ⟨ys, hys, has⟩⟩

/-- A value that is read at a place is read as the same when it is respelled. -/
theorem Respells.read {f : Form} {value value' : Json} (h : Respells f value value') {a : f.Value}
    (ha : f.read value = some a) : f.read value' = some a := by
  induction h with
  | permute hr hperm => exact Form.read_obj_of_carries hr (.perm hperm) ha
  | add value hr hname => exact Form.read_obj_of_carries hr (.add value hname) ha
  | drop s hr hs hvalue =>
    exact Form.read_obj_of_carries hr (.drop (Form.nodup_layout? hr) hs hvalue) ha
  | null hr hs hname =>
    exact Form.read_obj_of_carries hr (.null (Form.nodup_layout? hr) hs hname) ha
  | array count hr hdefault =>
    exact Form.read_of_carries hr (Record.fits_take ..)
      (.array (Form.nodup_layout? hr) hdefault) ha
  | dropLast hr hs hvalue =>
    exact Form.read_of_carries hr (Record.fits_of_getElem? hs).1
      (.dropLast (Form.nodup_layout? hr) hs hvalue) ha
  | nullLast hr hs =>
    exact Form.read_of_carries hr ((Record.fits_of_getElem? hs).2 .null)
      (.nullLast (Form.nodup_layout? hr) hs) ha
  | field s hr hs hvalue ih =>
    have hkeeps := Content.keeps_of_form hvalue.ne_null.1 hvalue.ne_null.2 fun a => ih
    exact Form.read_obj_of_carries hr (.field (Form.nodup_layout? hr) hs hkeeps) ha
  | element before after hr hs hvalue ih =>
    have hkeeps := Content.keeps_of_form hvalue.ne_null.1 hvalue.ne_null.2 fun a => ih
    have hfits := Record.fits_of_read ((Form.read_of_layout? hr).symm.trans ha)
    exact Form.read_of_carries hr (Record.fits_replace hfits _)
      (.element (Form.nodup_layout? hr) hs hkeeps) ha
  | item before after hvalue ih => exact mapM_replace (fun a => ih) ha

/-- Reading a program depends on what its JSON form says and not on how it is spelled. -/
theorem respelled_program_reads_same {value value' : Json} {p : Program}
    (hp : Program.ofJson? value = some p)
    (h : Relation.ReflTransGen (Respells .program) value value') :
    Program.ofJson? value' = some p := by
  induction h with
  | refl => exact hp
  | tail _ hstep ih => exact hstep.read ih

/-- A program that writes one truth value. -/
def truthful : Program :=
  ⟨"f", .void, [], .mk [.write (.bool true .zero) .zero] .zero, .zero⟩

/-- The program as an array, with its block and its expression respelled as well. -/
def truthfulRespelled : Json :=
  .arr [.str "f", .str "VOID", .arr [], .obj [("body", .arr [.arr [.str "Write",
    .obj [("note", .null), ("value", .bool true), ("span", Span.zero.toJson),
      ("kind", .str "BooleanLit")]]])]]

theorem truthful_reads_same :
    Program.ofJson? truthful.toJson = some truthful ∧
    Relation.ReflTransGen (Respells .program) truthful.toJson truthfulRespelled ∧
    Program.ofJson? truthfulRespelled = some truthful := by
  have hspan {fields : List (String × Json)}
      (h : fields.lookup "span" = some Span.zero.toJson) : Slot.span.IsDefaultIn fields := by
    refine ⟨rfl, fun value hvalue => ?_⟩
    cases h.symm.trans hvalue
    exact Span.ofJson?_toJson .zero
  -- in the program, its block and the statement of the block
  have hblock {block block' : Json} (h : Respells .block block block') :
      Respells .program (.arr [.str "f", .str "VOID", .arr [], block])
        (.arr [.str "f", .str "VOID", .arr [], block']) :=
    .element [.str "f", .str "VOID", .arr []] [] rfl rfl h
  have hstmt {stmt stmt' : Json} (h : Respells .stmt stmt stmt') :
      Respells .block (.obj [("body", .arr [stmt])]) (.obj [("body", .arr [stmt'])]) :=
    .field (.required "body" (.list .stmt)) rfl (.head _) (.item [] [] h)
  have hexpr {expr expr' : Json} (h : Respells .expr expr expr') :
      Respells .stmt (.arr [.str "Write", expr]) (.arr [.str "Write", expr']) :=
    .element [.str "Write"] [] rfl rfl h
  have hrespells : Relation.ReflTransGen (Respells .program) truthful.toJson truthfulRespelled :=
    .head (.array 4 rfl (List.forall_mem_singleton.2 (hspan rfl))) <|
    .head (hblock (.permute rfl (.swap _ _ _))) <|
    .head (hblock (.drop .span rfl (.tail _ (.head _)) (Span.ofJson?_toJson .zero))) <|
    .head (hblock (hstmt (.array 2 rfl (List.forall_mem_singleton.2 (hspan rfl))))) <|
    .head (hblock (hstmt (hexpr (.permute rfl (List.perm_append_singleton ..).symm)))) <|
    .single (hblock (hstmt (hexpr (.add .null rfl (by decide)))))
  have hread := Program.ofJson?_toJson truthful
  exact ⟨hread, hrespells, respelled_program_reads_same hread hrespells⟩

end PixelJava
