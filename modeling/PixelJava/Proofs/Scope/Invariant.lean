/-
Scopes: what each operation does to the open frames, the counters and the table, and the invariant
`WF` that every operation keeps. All declarations of the open frames count as visible, also one that
a later declaration of the same name in its frame hides. Their Java names are pairwise distinct: at
most one of a source name is plain, and the numbered ones have different numbers, as long as no
counter has come back to zero.
-/
import PixelJava.Proofs.Scope.Name

namespace PixelJava.Scopes

open Java

/-! ## Operations -/

/-- The declarations of all open frames, the latest one first. -/
def visible (s : Scopes) : List (String × Binding) :=
  s.frames.flatten

/-- Puts a declaration into the innermost frame, which is opened if there is none. -/
def push (entry : String × Binding) : List Frame → List Frame
  | [] => [[entry]]
  | frame :: rest => (entry :: frame) :: rest

theorem flatten_push (entry : String × Binding) (frames : List Frame) :
    (push entry frames).flatten = entry :: frames.flatten := by
  cases frames <;> simp [push]

/-- A name is looked up from the innermost frame outwards. -/
theorem find?_eq_lookup (s : Scopes) (name : String) : s.find? name = s.visible.lookup name := by
  unfold find? visible
  induction s.frames with
  | nil => rfl
  | cons frame rest ih =>
    rw [List.findSome?_cons, List.flatten_cons, List.lookup_append, ih]
    cases frame.lookup name <;> rfl

/-- What is read off the bindings of the visible declarations can be looked up among them. -/
theorem lookup_map_visible {β : Type} (f : Binding → β) (s : Scopes) (name : String) :
    (s.visible.map fun p => (p.1, f p.2)).lookup name = (s.find? name).map f := by
  rw [find?_eq_lookup]
  induction s.visible with
  | nil => rfl
  | cons p rest ih =>
    rw [List.map_cons, List.lookup_cons, List.lookup_cons, ih]
    cases name == p.1 <;> rfl

theorem find?_of_visible {s t : Scopes} (h : s.visible = t.visible) (name : String) :
    s.find? name = t.find? name := by
  rw [find?_eq_lookup, find?_eq_lookup, h]

theorem isBound_of_visible {s t : Scopes} (h : s.visible = t.visible) (name : String) :
    s.isBound name = t.isBound name := by
  unfold isBound; rw [find?_of_visible h]

/-- A name is bound if some open frame binds it. -/
theorem isBound_iff (s : Scopes) (name : String) :
    s.isBound name = true ↔ ∃ p ∈ s.visible, p.1 = name := by
  unfold isBound
  rw [find?_eq_lookup, List.lookup_isSome_iff]
  constructor
  · rintro ⟨p, hp, h⟩; exact ⟨p, hp, (beq_iff_eq.1 h).symm⟩
  · rintro ⟨p, hp, h⟩; exact ⟨p, hp, beq_iff_eq.2 h.symm⟩

theorem mem_visible_of_find? {s : Scopes} {name : String} {b : Binding}
    (h : s.find? name = some b) : (name, b) ∈ s.visible := by
  rw [find?_eq_lookup, List.lookup_eq_some_iff] at h
  obtain ⟨before, after, hv, -⟩ := h
  rw [hv]; simp

@[simp] theorem visible_enter (s : Scopes) : s.enter.visible = s.visible := rfl

@[simp] theorem counter_enter (s : Scopes) (name : String) :
    s.enter.counter name = s.counter name := rfl

@[simp] theorem counter_exit (s : Scopes) (name : String) :
    s.exit.counter name = s.counter name := rfl

@[simp] theorem visible_opened (s : Scopes) : s.opened.visible = s.visible := by
  unfold opened; split <;> rfl

@[simp] theorem declared_opened (s : Scopes) : s.opened.declared = s.declared := by
  unfold opened; split <;> rfl

@[simp] theorem counter_opened (s : Scopes) (name : String) :
    s.opened.counter name = s.counter name := by
  unfold opened; split <;> rfl

@[simp] theorem nextName_opened (s : Scopes) (name : String) :
    s.opened.nextName name = s.nextName name := by
  unfold nextName
  rw [isBound_of_visible (visible_opened s), counter_opened]

theorem frames_bind_opened (s : Scopes) (name javaName : String) (type : Ty) (span : Span) :
    (s.opened.bind name javaName type span).frames =
      push (name, ⟨javaName, type, s.declared.length⟩) s.frames := by
  obtain ⟨frames, counters, declared⟩ := s
  cases frames <;> rfl

theorem frames_counted (s : Scopes) (name : String) : (s.counted name).frames = s.frames := by
  unfold counted; split <;> rfl

theorem declared_counted (s : Scopes) (name : String) :
    (s.counted name).declared = s.declared := by
  unfold counted; split <;> rfl

/-- Only a name that is bound already is counted. -/
theorem counter_counted (s : Scopes) (name other : String) :
    (s.counted name).counter other =
      if other = name ∧ s.isBound name = true then s.counter name + 1 else s.counter other := by
  unfold counted
  cases hb : s.isBound name with
  | false => simp
  | true =>
    by_cases ho : other = name
    · subst ho; simp [counter]
    · have : (other == name) = false := by simpa using ho
      simp [counter, List.lookup_cons, this, ho]

/-- What a declaration of `name` is bound to. -/
def nextBinding (s : Scopes) (name : String) (type : Ty) : Binding :=
  ⟨s.nextName name, type, s.declared.length⟩

@[simp] theorem add_fst (s : Scopes) (name : String) (type : Ty) (span : Span) :
    (s.add name type span).1 = s.nextName name := by
  simp [add]

/-- A declaration goes into the innermost frame. -/
theorem frames_add (s : Scopes) (name : String) (type : Ty) (span : Span) :
    (s.add name type span).2.frames = push (name, s.nextBinding name type) s.frames := by
  have hb : ∀ (t : Scopes) (javaName : String), ((t.counted name).bind name javaName type span).frames =
      (t.bind name javaName type span).frames := by
    intro t javaName
    simp only [bind, frames_counted, declared_counted]
  simp only [add, hb, frames_bind_opened, nextName_opened, nextBinding]

/-- A declaration hides those of the same name before it. -/
theorem visible_add (s : Scopes) (name : String) (type : Ty) (span : Span) :
    (s.add name type span).2.visible = (name, s.nextBinding name type) :: s.visible := by
  unfold visible
  rw [frames_add, flatten_push]

/-- A declaration is listed with the name that it is emitted under and the depth of its frame. -/
theorem declared_add (s : Scopes) (name : String) (type : Ty) (span : Span) :
    (s.add name type span).2.declared =
      s.declared ++ [⟨name, s.nextName name, type, span, s.opened.depth⟩] := by
  simp [add, bind, declared_counted, depth, frames_counted]

/-- A declaration advances the counter of its name if the name is bound, and no other. -/
theorem counter_add (s : Scopes) (name other : String) (type : Ty) (span : Span) :
    (s.add name type span).2.counter other =
      if other = name ∧ s.isBound name = true then s.counter name + 1 else s.counter other := by
  have hc : (s.add name type span).2.counter other = (s.opened.counted name).counter other := rfl
  rw [hc, counter_counted, isBound_of_visible (visible_opened s)]
  simp

/-! ## Counters and the table -/

/-- How often `name` has been declared while it was bound. The table tells: those declarations have
a numbered name. -/
def redeclared (s : Scopes) (name : String) : Nat :=
  s.declared.countP fun d => d.sourceName == name && d.javaName != plainName name

/-- Fewer declarations than a counter can count. -/
def Unwrapped (s : Scopes) : Prop :=
  ∀ name, s.redeclared name < UInt32.size

/-- Only a name that is bound is given a number. -/
theorem nextName_eq_plainName_iff (s : Scopes) (name : String) :
    s.nextName name = plainName name ↔ s.isBound name = false := by
  unfold nextName
  cases s.isBound name with
  | false => simp
  | true => simpa using (plainName_ne_freshName _).symm

/-- The table counts a redeclaration just when the counter does. -/
theorem redeclared_add (s : Scopes) (name other : String) (type : Ty) (span : Span) :
    (s.add name type span).2.redeclared other =
      if other = name ∧ s.isBound name = true then s.redeclared name + 1
      else s.redeclared other := by
  rw [redeclared, declared_add, List.countP_append, List.countP_singleton]
  by_cases ho : other = name
  · subst ho
    cases hb : s.isBound other with
    | false => simp [redeclared, (nextName_eq_plainName_iff s other).2 hb]
    | true => simp [redeclared, nextName_eq_plainName_iff, hb]
  · simp [redeclared, ho, Ne.symm ho]

/-- The table only grows, so what it counts does. -/
theorem redeclared_le {s t : Scopes} (h : s.declared <+: t.declared) (name : String) :
    s.redeclared name ≤ t.redeclared name :=
  h.sublist.countP_le

/-- Counters that have not overflowed had not done so before. -/
theorem Unwrapped.of_prefix {s t : Scopes} (ht : t.Unwrapped) (h : s.declared <+: t.declared) :
    s.Unwrapped :=
  fun name => Nat.lt_of_le_of_lt (redeclared_le h name) (ht name)

theorem redeclared_sub_add {s t u : Scopes} (h : s.declared <+: t.declared)
    (h' : t.declared <+: u.declared) (name : String) :
    t.redeclared name - s.redeclared name + (u.redeclared name - t.redeclared name) =
      u.redeclared name - s.redeclared name := by
  have := redeclared_le h name
  have := redeclared_le h' name
  omega

/-- A counter advances by the redeclarations made, modulo 2^32. -/
theorem counter_add_eq (s : Scopes) (name other : String) (type : Ty) (span : Span) :
    (s.add name type span).2.counter other = s.counter other +
      UInt32.ofNat ((s.add name type span).2.redeclared other - s.redeclared other) := by
  rw [counter_add, redeclared_add]
  split
  · rename_i h
    simp [h.1]
  · simp

/-- Each redeclaration takes an entry of the table. -/
theorem unwrapped_of_length {s : Scopes} (h : s.declared.length < UInt32.size) : s.Unwrapped :=
  fun _ => Nat.lt_of_le_of_lt List.countP_le_length h

/-! ## The invariant -/

/-- A Java name that a declaration of `name` can have got after at most `n` redeclarations. -/
def Made (name : String) (n : Nat) (javaName : String) : Prop :=
  javaName = plainName name ∨ ∃ k ≤ n, javaName = freshName name (k % UInt32.size)

/-- The invariant of scopes reached from the empty ones. -/
structure WF (s : Scopes) : Prop where
  source : ∀ p ∈ s.visible, isSourceName p.1 = true
  made : ∀ p ∈ s.visible, Made p.1 (s.redeclared p.1) p.2.javaName
  counted : ∀ name, s.counter name = UInt32.ofNat (s.redeclared name)
  distinct : s.Unwrapped → (s.visible.map (·.2.javaName)).Nodup

theorem Made.mono {name javaName : String} {m n : Nat} (h : Made name m javaName) (hmn : m ≤ n) :
    Made name n javaName := by
  rcases h with h | ⟨k, hk, h⟩
  · exact .inl h
  · exact .inr ⟨k, Nat.le_trans hk hmn, h⟩

/-- A name that is made from another can be told by its stem. -/
theorem Made.stem_eq {name javaName : String} {n : Nat} (h : Made name n javaName)
    (hs : isSourceName name = true) : stem javaName = name.toList := by
  rcases h with rfl | ⟨k, -, rfl⟩
  · exact stem_plainName hs
  · exact stem_freshName _ hs

theorem Made.isName {name javaName : String} {n : Nat} (h : Made name n javaName)
    (hs : isSourceName name = true) : Java.isName javaName = true := by
  rcases h with rfl | ⟨k, -, rfl⟩
  · exact isName_plainName hs
  · exact isName_freshName _ hs

/-- The source name can be read off the Java name. -/
theorem Made.inj {a b javaName : String} {m n : Nat} (ha : Made a m javaName) (hb : Made b n javaName)
    (hsa : isSourceName a = true) (hsb : isSourceName b = true) : a = b := by
  apply String.toList_injective
  rw [← ha.stem_eq hsa, hb.stem_eq hsb]

/-- The number that a name is given next, with the overflow of its counter. -/
theorem WF.nextName_of_isBound {s : Scopes} (hw : s.WF) {name : String}
    (h : s.isBound name = true) :
    s.nextName name = freshName name ((s.redeclared name + 1) % UInt32.size) := by
  rw [nextName, if_pos h, hw.counted, UInt32.toNat_add, UInt32.toNat_ofNat']
  exact congrArg (freshName name) (Nat.mod_add_mod _ _ _)

theorem isName_nextName {s : Scopes} {name : String} (hs : isSourceName name = true) :
    isName (s.nextName name) = true := by
  unfold nextName
  split
  · exact isName_freshName _ hs
  · exact isName_plainName hs

/-- The next name is made from the declared one. -/
theorem made_nextName {s : Scopes} (hw : s.WF) (name : String) (type : Ty) (span : Span) :
    Made name ((s.add name type span).2.redeclared name) (s.nextName name) := by
  cases hb : s.isBound name with
  | false => exact .inl (by simp [nextName, hb])
  | true => exact .inr ⟨_, by rw [redeclared_add]; simp [hb], hw.nextName_of_isBound hb⟩

/-- A new Java name differs from those of all visible declarations: from those of other source
names by its stem, from those of the same one, which is bound then, by its number. -/
theorem nextName_ne {s : Scopes} (hw : s.WF) {name : String} (hs : isSourceName name = true)
    {type : Ty} {span : Span} (hu : (s.add name type span).2.Unwrapped) :
    ∀ p ∈ s.visible, p.2.javaName ≠ s.nextName name := by
  intro p hp he
  have hmade := hw.made p hp
  -- equal Java names come from one source name, which is bound then
  have hpn : p.1 = name := (he ▸ hmade).inj (made_nextName hw name type span) (hw.source p hp) hs
  have hb : s.isBound name = true := (isBound_iff s name).2 ⟨p, hp, hpn⟩
  rw [hpn, he, hw.nextName_of_isBound hb] at hmade
  rcases hmade with h | ⟨k, hk, h⟩
  · exact plainName_ne_freshName _ h.symm
  · have hlt : s.redeclared name + 1 < UInt32.size := by
      have := hu name
      rwa [redeclared_add, if_pos ⟨rfl, hb⟩] at this
    have hnumber := freshName_inj h
    rw [Nat.mod_eq_of_lt hlt, Nat.mod_eq_of_lt (by omega)] at hnumber
    omega

theorem empty_wf : Scopes.empty.WF :=
  ⟨fun _ hp => (by cases hp), fun _ hp => (by cases hp), fun _ => rfl, fun _ => List.nodup_nil⟩

theorem enter_wf {s : Scopes} (hw : s.WF) : s.enter.WF :=
  ⟨hw.source, hw.made, hw.counted, hw.distinct⟩

/-- Leaving a scope only takes bindings away. -/
theorem visible_exit (s : Scopes) : s.exit.visible.Sublist s.visible := by
  unfold visible exit
  cases s.frames with
  | nil => exact List.Sublist.refl _
  | cons frame rest => exact List.sublist_append_right frame rest.flatten

theorem exit_wf {s : Scopes} (hw : s.WF) : s.exit.WF :=
  ⟨fun p hp => hw.source p ((visible_exit s).subset hp),
    fun p hp => hw.made p ((visible_exit s).subset hp), hw.counted,
    fun hu => (hw.distinct hu).sublist ((visible_exit s).map _)⟩

/-- The table grows at its end. -/
theorem prefix_add (s : Scopes) (name : String) (type : Ty) (span : Span) :
    s.declared <+: (s.add name type span).2.declared := by
  rw [declared_add]
  exact List.prefix_append _ _

/-- A declaration of a name keeps the invariant: the name it is emitted under is new, as long as no
counter has overflowed. -/
theorem add_wf {s : Scopes} (hw : s.WF) {name : String} (hs : isSourceName name = true) (type : Ty)
    (span : Span) : (s.add name type span).2.WF := by
  have hgrow := prefix_add s name type span
  refine ⟨?_, ?_, ?_, ?_⟩
  · intro p hp
    rw [visible_add] at hp
    rcases List.mem_cons.1 hp with rfl | hp
    · exact hs
    · exact hw.source p hp
  · intro p hp
    rw [visible_add] at hp
    rcases List.mem_cons.1 hp with rfl | hp
    · exact made_nextName hw name type span
    · exact (hw.made p hp).mono (redeclared_le hgrow p.1)
  · intro other
    rw [counter_add, redeclared_add]
    split
    · rw [hw.counted, UInt32.ofNat_add]
      rfl
    · exact hw.counted other
  · intro hu
    rw [visible_add, List.map_cons, List.nodup_cons]
    refine ⟨?_, hw.distinct (hu.of_prefix hgrow)⟩
    intro hm
    obtain ⟨p, hp, he⟩ := List.mem_map.1 hm
    exact nextName_ne hw hs hu p hp he

end PixelJava.Scopes
