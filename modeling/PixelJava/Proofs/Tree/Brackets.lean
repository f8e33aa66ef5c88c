/-
Heights of trees against the brackets of their JSON form. Every expression and every block is a
bracket of its own, however it is spelled, so what is read from a value is no higher than the
brackets of the value nest; a program is lower, since its block stands in a bracket. Brackets of text
may nest only so deep, and what they allow is less than the default limit on nesting.
-/
import PixelJava.Proofs.Lowering.Threshold
import PixelJava.Proofs.Tree.Form
import PixelJava.Tree.Read

namespace PixelJava

open Json

/-! ## Heights of all forms -/

/-- How deep blocks and expressions nest in what a value stands for. -/
def Form.height : (f : Form) → f.Value → Nat
  | .pixel, p => max p.x.height p.y.height
  | .dimension, d => max d.width.height d.height.height
  | .nameDef _, n => n.dimension.elim 0 fun d => max d.width.height d.height.height
  | .target _, t => t.pixel.elim 0 fun p => max p.x.height p.y.height
  | .block, b => b.height
  | .branch, b => max b.guard.height b.block.height
  | .program, p => p.height
  | .expr, e => e.height
  | .stmt, s => s.height
  | .list item, items => items.foldr (fun a n => max (item.height a) n) 0
  | .text, _ | .truth, _ | .position, _ | .type _, _ | .binaryOp, _ | .unaryOp, _ | .color _, _
  | .span, _ | .channel _, _ => 0

theorem Form.height_list_le {item : Form} {items : List item.Value} {n : Nat}
    (h : ∀ a ∈ items, item.height a ≤ n) : (Form.list item).height items ≤ n := by
  induction items with
  | nil => exact Nat.zero_le n
  | cons a rest ih =>
    obtain ⟨ha, hrest⟩ := List.forall_mem_cons.1 h
    exact Nat.max_le.2 ⟨ha, ih hrest⟩

theorem bodyHeight_le {body : List Stmt} {n : Nat} (h : (Form.list .stmt).height body ≤ n) :
    bodyHeight body ≤ n := by
  induction body with
  | nil => exact Nat.zero_le n
  | cons stmt rest ih =>
    obtain ⟨hstmt, hrest⟩ := Nat.max_le.1 h
    exact Nat.max_le.2 ⟨hstmt, ih hrest⟩

theorem branchesHeight_le {branches : List Branch} {n : Nat}
    (h : (Form.list .branch).height branches ≤ n) : branchesHeight branches ≤ n := by
  induction branches with
  | nil => exact Nat.zero_le n
  | cons branch rest ih =>
    obtain ⟨guard, block, span⟩ := branch
    obtain ⟨hbranch, hrest⟩ := Nat.max_le.1 h
    obtain ⟨hguard, hblock⟩ := Nat.max_le.1 hbranch
    exact Nat.max_le.2 ⟨hguard, Nat.max_le.2 ⟨hblock, ih hrest⟩⟩

theorem highest_le {parts : List Expr} {n : Nat} (h : ∀ e ∈ parts, e.height ≤ n) :
    highest parts ≤ n :=
  @Form.height_list_le .expr parts n h

/-- The height of what a slot holds; the items of a list that may be left out do not count. -/
def Content.height : (c : Content) → c.Value → Nat
  | .required form, a => form.height a
  | .optional form, a => a.elim 0 form.height
  | .span, _ | .items _, _ => 0

theorem Content.height_le {c : Content} {x : Option Json} {a : c.Value} {n : Nat}
    (h : c.read Form.read x = some a)
    (hread : ∀ v, x = some v → ∀ b, c.form.read v = some b → c.form.height b ≤ n) :
    c.height a ≤ n := by
  cases c with
  | required form =>
    obtain ⟨v, rfl, hv⟩ := Option.bind_eq_some_iff.1 h
    exact hread v rfl a hv
  | optional form =>
    change optional? (Form.read form) x = some a at h
    unfold optional? at h
    split at h
    · cases h; exact Nat.zero_le n
    · cases h; exact Nat.zero_le n
    · obtain ⟨b, hb, rfl⟩ := Option.map_eq_some_iff.1 h
      exact hread _ rfl b hb
  | span => exact Nat.zero_le n
  | items item => exact Nat.zero_le n

/-! ## Records -/

/-- Whatever is made of parts of height at most `n` has height at most `m`. -/
def Bounded {α : Type} (height : α → Nat) (n m : Nat) : (slots : List Slot) → Maker α slots → Prop
  | [], a => height a ≤ m
  | s :: rest, make => ∀ value, s.content.height value ≤ n → Bounded height n m rest (make value)

/-- What is read from a record is bounded if its fields are. -/
theorem readInto_bounded {α : Type} {height : α → Nat} {n m : Nat} {slots : List Slot}
    {make : Maker α slots} (hbounded : Bounded height n m slots make) {xs : List (Option Json)}
    (hread : ∀ f v a, some v ∈ xs → Form.read f v = some a → f.height a ≤ n) {a : α}
    (h : readInto Form.read slots make xs = some a) : height a ≤ m := by
  induction slots generalizing xs with
  | nil =>
    cases xs with
    | nil => cases h; exact hbounded
    | cons x xs => cases h
  | cons s rest ih =>
    cases xs with
    | nil => cases h
    | cons x xs =>
      obtain ⟨value, hvalue, h⟩ := Option.bind_eq_some_iff.1 h
      have hle : s.content.height value ≤ n :=
        Content.height_le hvalue fun v hv b => hread _ v b (hv ▸ List.mem_cons_self)
      exact ih (hbounded value hle) (fun f v a hv => hread f v a (List.mem_cons_of_mem _ hv)) h

/-- A record is a bracket with at most `n` inside it, which bounds what is read of it. -/
theorem Record.exists_bound {α : Type} {r : Record α} {record : Json} {a : α}
    (hread : ∀ f v b, v.depth < record.depth → Form.read f v = some b → f.height b ≤ v.depth)
    (h : r.read Form.read record = some a) :
    ∃ n, record.depth = n + 1 ∧
      ∀ (height : α → Nat) (m : Nat), Bounded height n m r.slots r.make → height a ≤ m := by
  obtain ⟨xs, hxs, h⟩ := Option.bind_eq_some_iff.1 h
  have hpos : record.depth ≠ 0 := by
    cases record with
    | obj fields => simp [depth]
    | arr items => simp [depth]
    | _ => cases hxs
  obtain ⟨n, hn⟩ := Nat.exists_eq_succ_of_ne_zero hpos
  refine ⟨n, hn, fun height m hbounded => readInto_bounded hbounded (fun f v b hv hb => ?_) h⟩
  have hdepth := Schema.depth_of_read hxs hv
  have hheight := hread f v b hdepth hb
  omega

/-! ## The records of trees -/

theorem Expr.bounded {kind : String} {r : Record Expr} (h : Expr.record? kind = some r) (n : Nat) :
    Bounded Expr.height n (n + 1) r.slots r.make := by
  have hleaf : 1 ≤ n + 1 := Nat.succ_le_succ (Nat.zero_le n)
  unfold Expr.record? at h
  split at h <;> cases h
  · exact fun _ _ _ _ _ _ => hleaf
  · exact fun _ _ _ _ => hleaf
  · exact fun _ _ _ _ => hleaf
  · exact fun _ _ _ _ => hleaf
  · exact fun _ _ _ _ _ _ => hleaf
  · exact fun _ hguard _ htrue _ hfalse _ _ _ _ =>
      Nat.succ_le_succ (Nat.max_le.2 ⟨hguard, Nat.max_le.2 ⟨htrue, hfalse⟩⟩)
  · exact fun _ hleft _ _ _ hright _ _ _ _ => Nat.succ_le_succ (Nat.max_le.2 ⟨hleft, hright⟩)
  · exact fun _ _ _ hoperand _ _ _ _ => Nat.succ_le_succ hoperand
  · intro primary hprimary coords hcoords channel _ type _ span _
    cases coords with
    | none => exact Nat.succ_le_succ hprimary
    | some coords => exact Nat.succ_le_succ (Nat.max_le.2 ⟨hprimary, hcoords⟩)
  · exact fun _ hred _ hgreen _ hblue _ _ =>
      Nat.succ_le_succ (Nat.max_le.2 ⟨hred, Nat.max_le.2 ⟨hgreen, hblue⟩⟩)

/-- The two expressions of a size or of a place, which may be left out. -/
theorem height_le_of_pair {α : Type} {first second : α → Expr} {pair : Option α} {n : Nat}
    (h : (pair.elim 0 fun a => max (first a).height (second a).height) ≤ n) :
    ∀ e ∈ pair.elim [] fun a => [first a, second a], e.height ≤ n := by
  cases pair with
  | none => exact fun e he => (by cases he)
  | some a =>
    obtain ⟨hfirst, hsecond⟩ := Nat.max_le.1 h
    exact List.forall_mem_cons.2 ⟨hfirst, List.forall_mem_singleton.2 hsecond⟩

theorem Stmt.bounded {kind : String} {r : Record Stmt} (h : Stmt.record? kind = some r) (n : Nat) :
    Bounded Stmt.height n (n + 1) r.slots r.make := by
  unfold Stmt.record? at h
  split at h <;> cases h
  · intro defined hdefined initializer hinitializer span _
    refine Nat.le_succ_of_le (highest_le fun e he => ?_)
    rcases List.mem_append.1 he with he | he
    · rw [Option.mem_toList.1 he] at hinitializer
      exact hinitializer
    · exact height_le_of_pair hdefined e he
  · intro target htarget value hvalue span _
    refine Nat.le_succ_of_le (highest_le fun e he => ?_)
    rcases List.mem_append.1 he with he | he
    · exact height_le_of_pair htarget e he
    · rw [List.mem_singleton.1 he]
      exact hvalue
  · exact fun _ hvalue _ _ => Nat.le_succ_of_le hvalue
  · exact fun _ hbranches _ _ => Nat.le_succ_of_le (branchesHeight_le hbranches)
  · exact fun _ hbranches _ _ => Nat.le_succ_of_le (branchesHeight_le hbranches)
  · exact fun _ hvalue _ _ => Nat.le_succ_of_le hvalue
  · exact fun _ hbody _ _ => Nat.succ_le_succ (bodyHeight_le hbody)

/-- Every node is at most one level higher than the highest of its parts. -/
theorem Form.bounded {f : Form} {kind : Option String} {r : Record f.Value}
    (h : f.record? kind = some r) (n : Nat) : Bounded f.height n (n + 1) r.slots r.make := by
  unfold Form.record? at h
  split at h
  case h_10 => exact Expr.bounded h n
  case h_11 => exact Stmt.bounded h n
  all_goals cases h
  -- a span and a channel have no height
  · exact fun _ _ _ _ => Nat.zero_le _
  · exact fun _ _ _ _ => Nat.zero_le _
  · exact fun _ hx _ hy _ _ => Nat.le_succ_of_le (Nat.max_le.2 ⟨hx, hy⟩)
  · exact fun _ hwidth _ hheight _ _ => Nat.le_succ_of_le (Nat.max_le.2 ⟨hwidth, hheight⟩)
  · exact fun _ _ _ _ _ hdimension _ _ => Nat.le_succ_of_le hdimension
  · exact fun _ _ _ hpixel _ _ _ _ _ _ => Nat.le_succ_of_le hpixel
  · exact fun _ hbody _ _ => Nat.succ_le_succ (bodyHeight_le hbody)
  · exact fun _ hguard _ hblock _ _ => Nat.le_succ_of_le (Nat.max_le.2 ⟨hguard, hblock⟩)
  · exact fun _ _ _ _ _ _ _ hblock _ _ => Nat.le_succ_of_le hblock

/-! ## Values that are read -/

theorem forall_of_mapM {α β : Type} {f : α → Option β} {P : β → Prop} {items : List α}
    (h : ∀ item ∈ items, ∀ b, f item = some b → P b) {bs : List β} (hbs : items.mapM f = some bs) :
    ∀ b ∈ bs, P b := by
  induction items generalizing bs with
  | nil =>
    cases hbs
    exact fun b hb => (by cases hb)
  | cons item rest ih =>
    obtain ⟨hitem, hrest⟩ := List.forall_mem_cons.1 h
    rw [List.mapM_cons] at hbs
    obtain ⟨b, hb, hbs⟩ := Option.bind_eq_some_iff.1 hbs
    obtain ⟨bs', hbs', he⟩ := Option.bind_eq_some_iff.1 hbs
    cases he
    exact List.forall_mem_cons.2 ⟨hitem b hb, ih hrest hbs'⟩

/-- What is read from a value is no higher than the brackets of the value nest: a record is a
bracket, and the parts it is made of stand inside. -/
theorem Form.height_le_depth {f : Form} {value : Json} {a : f.Value} (h : f.read value = some a) :
    f.height a ≤ value.depth := by
  generalize hdepth : value.depth = depth
  induction depth using Nat.strongRecOn generalizing f value with
  | _ depth ih =>
    subst hdepth
    have hread : ∀ g v b, v.depth < value.depth → Form.read g v = some b → g.height b ≤ v.depth :=
      fun g v b hv hb => ih v.depth hv hb rfl
    have hrecord {r : Record f.Value} (hr : f.record? none = some r) :
        f.height a ≤ value.depth := by
      rw [Form.read_of_record? hr] at h
      obtain ⟨n, hn, hle⟩ := Record.exists_bound hread h
      exact hn ▸ hle f.height (n + 1) (Form.bounded hr n)
    have hnode (h : readNode (fun kind => f.record? (some kind)) Form.read value = some a) :
        f.height a ≤ value.depth := by
      obtain ⟨⟨kind, record⟩, hkind, h⟩ := Option.bind_eq_some_iff.1 h
      obtain ⟨r, hr, h⟩ := Option.bind_eq_some_iff.1 h
      have hinside := depth_of_node? hkind
      obtain ⟨n, hn, hle⟩ :=
        Record.exists_bound (fun g v b hv => hread g v b (Nat.lt_of_lt_of_le hv hinside)) h
      exact Nat.le_trans (hle f.height (n + 1) (Form.bounded hr n)) (hn ▸ hinside)
    cases f with
    | expr => exact hnode ((Expr.ofJson?_eq value).symm.trans h)
    | stmt => exact hnode ((Stmt.ofJson?_eq value).symm.trans h)
    | list item =>
      cases value with
      | arr items =>
        refine Form.height_list_le (forall_of_mapM (fun v hv b hb => ?_) h)
        have hv := depth_lt_arr hv
        exact Nat.le_trans (hread item v b hv hb) (Nat.le_of_lt hv)
      | _ => cases h
    | pixel | dimension | nameDef place | target place | block | branch | program => exact hrecord rfl
    | text | truth | position | type place | binaryOp | unaryOp | color place | span
    | channel place => exact Nat.zero_le _

/-- A program nests less deep than the brackets that it is read from: its block stands in one. -/
theorem Program.height_lt_depth {value : Json} {program : Program}
    (h : Program.ofJson? value = some program) : program.height < value.depth := by
  rw [Program.ofJson?_eq Expr.ofJson?] at h
  obtain ⟨n, hn, hle⟩ := Record.exists_bound (fun f v b _ hb => Form.height_le_depth hb) h
  have hblock := hle Program.height n fun _ _ _ _ _ _ _ hblock _ _ => hblock
  omega

/-! ## Text -/

theorem Json.Schema.getElem?_elements {schema : Schema} {values : List Json}
    {xs : List (Option Json)} (h : schema.elements values = some xs) {i : Nat}
    (hi : i < schema.length) : xs[i]? = some values[i]? := by
  fun_induction elements schema values generalizing xs i with
  | case1 => cases hi
  | case2 => cases hi
  | case3 field rest hdefault ih =>
    obtain ⟨ys, hys, rfl⟩ := Option.map_eq_some_iff.1 h
    cases i with
    | zero => rfl
    | succ i => simpa using ih hys (Nat.lt_of_succ_lt_succ hi)
  | case4 => cases h
  | case5 field rest value values ih =>
    obtain ⟨ys, hys, rfl⟩ := Option.map_eq_some_iff.1 h
    cases i with
    | zero => rfl
    | succ i => simpa using ih hys (Nat.lt_of_succ_lt_succ hi)

theorem Json.Schema.getElem?_members {schema : Schema} {fields : List (String × Json)}
    {xs : List (Option Json)} (h : schema.mapM (member fields) = some xs) {i : Nat} {field : Field}
    (hi : schema[i]? = some field) : xs[i]? = some (fields.lookup field.name) := by
  induction schema generalizing xs i with
  | nil => cases hi
  | cons first rest ih =>
    rw [List.mapM_cons] at h
    obtain ⟨x, hx, h⟩ := Option.bind_eq_some_iff.1 h
    obtain ⟨ys, hys, he⟩ := Option.bind_eq_some_iff.1 h
    cases he
    cases i with
    | zero =>
      cases hi
      rw [lookup_of_member hx]
      rfl
    | succ i => exact ih hys hi

/-- A part of a record is what its field is read from. -/
theorem Json.Schema.part?_of_read {schema : Schema} {record : Json} {xs : List (Option Json)}
    (h : schema.read record = some xs) {i : Nat} {field : Field} (hi : schema[i]? = some field) :
    xs[i]? = some (record.part? field.name i) := by
  cases record with
  | obj fields => exact getElem?_members h hi
  | arr values => exact getElem?_elements h (List.getElem?_eq_some_iff.1 hi).1
  | _ => cases h

theorem Json.mapM_of_list? {α : Type} {decode : Json → Option α} {value : Json} {xs : List α}
    (h : list? decode value = some xs) : value.itemList.mapM decode = some xs := by
  cases value with
  | arr items => exact h
  | _ => cases h

theorem Program.block_of_ofJson? {value : Json} {program : Program}
    (h : Program.ofJson? value = some program) :
    ∃ block, value.part? "block" 3 = some block ∧ Block.ofJson? block = some program.block := by
  obtain ⟨xs, hxs, h⟩ := Option.bind_eq_some_iff.1 h
  split at h
  · rename_i name type params block span
    have hpart := Option.some.inj (Schema.part?_of_read hxs (i := 3) rfl)
    obtain ⟨_, -, h⟩ := Option.bind_eq_some_iff.1 h
    obtain ⟨_, -, h⟩ := Option.bind_eq_some_iff.1 h
    obtain ⟨_, -, h⟩ := Option.bind_eq_some_iff.1 h
    obtain ⟨b, hb, h⟩ := Option.bind_eq_some_iff.1 h
    obtain ⟨_, -, h⟩ := Option.bind_eq_some_iff.1 h
    cases h
    exact ⟨block, hpart.symm, hb⟩
  · cases h

theorem Block.body_of_ofJson? {value : Json} {block : Block} (h : Block.ofJson? value = some block) :
    ∃ body, value.part? "body" 0 = some body ∧
      body.itemList.mapM Stmt.ofJson? = some block.body := by
  obtain ⟨xs, hxs, h⟩ := Option.bind_eq_some_iff.1 h
  split at h
  · rename_i body span
    have hpart := Option.some.inj (Schema.part?_of_read hxs (i := 0) rfl)
    obtain ⟨stmts, hstmts, h⟩ := Option.bind_eq_some_iff.1 h
    obtain ⟨_, -, h⟩ := Option.bind_eq_some_iff.1 h
    cases h
    exact ⟨body, hpart.symm, Json.mapM_of_list? hstmts⟩
  · cases h

/-- The statements of a program are read from nodes that stand outside of all others. -/
theorem Program.body_of_ofJson? {value : Json} {program : Program}
    (h : Program.ofJson? value = some program) :
    ∃ items : List Json, items.mapM Stmt.ofJson? = some program.block.body ∧
      ∀ item ∈ items, (3, item) ∈ outerNodes value := by
  obtain ⟨block, hblock, h⟩ := block_of_ofJson? h
  obtain ⟨body, hbody, hitems⟩ := Block.body_of_ofJson? h
  refine ⟨body.itemList, hitems, fun item hitem => ?_⟩
  refine List.mem_append_left _ (List.mem_map.2 ⟨item, ?_, rfl⟩)
  rw [hblock, Option.bind_some, hbody]
  exact hitem

/-- A program that is read from text is read from a value. -/
theorem Program.exists_value_of_ofText? {text : String} {program : Program}
    (h : Program.ofText? text = some program) :
    ∃ value, isLegible value = true ∧ Program.ofJson? value = some program := by
  obtain ⟨value, -, h⟩ := Option.bind_eq_some_iff.1 h
  split at h
  · exact ⟨value, ‹_›, h⟩
  · cases h

/-- A program that is read from text is two less high than its brackets may nest: the brackets of
the program and of the list of its statements hold nothing that counts. -/
theorem Program.height_of_ofText? {text : String} {program : Program}
    (h : Program.ofText? text = some program) : program.height + 2 ≤ maxBrackets := by
  obtain ⟨value, hlegible, h⟩ := exists_value_of_ofText? h
  obtain ⟨items, hitems, houter⟩ := body_of_ofJson? h
  have hbody : ∀ s ∈ program.block.body, s.height ≤ maxBrackets - 3 := by
    refine forall_of_mapM (fun item hitem s hs => ?_) hitems
    have hnode := List.all_eq_true.1 hlegible _ (houter item hitem)
    have hdepth : 3 + item.depth ≤ maxBrackets :=
      of_decide_eq_true (Bool.and_eq_true_iff.1 hnode).1
    have hheight : s.height ≤ item.depth := @Form.height_le_depth .stmt item s hs
    omega
  have hblock : program.height ≤ maxBrackets - 3 + 1 := by
    unfold Program.height
    cases hb : program.block with
    | mk body span =>
      rw [hb] at hbody
      exact Nat.succ_le_succ (bodyHeight_le (@Form.height_list_le .stmt body _ hbody))
  unfold maxBrackets at hblock ⊢
  omega

/-- No fault is about nesting under a limit that the program stays within. -/
theorem compile_shallow {options : Options} {program : Program}
    (hheight : program.height ≤ options.maxDepth.toNat) {fault : Fault}
    (h : (compile options program).value = .error fault) : fault.isDeep = false := by
  have hwithin := (threshold_program options program).within options.maxDepth (Nat.zero_le _)
  rw [Nat.zero_add] at hwithin
  rw [compile_value] at h
  cases hfaults : program.violations options with
  | nil =>
    rw [hfaults] at h
    cases h
  | cons _ rest =>
    rw [hfaults] at h
    cases h
    exact hwithin.2 hheight fault (hfaults ▸ List.mem_cons_self)

theorem compile_text_shallow {text : String} {program : Program}
    (h : Program.ofText? text = some program) {options : Options} (hlimit : 126 ≤ options.maxDepth)
    {fault : Fault} (hfault : (compile options program).value = .error fault) (n : UInt64) :
    fault.cause ≠ .tooDeep n := by
  have hheight := Program.height_of_ofText? h
  have hlimit : 126 ≤ options.maxDepth.toNat := UInt64.le_iff_toNat_le.1 hlimit
  unfold Program.maxBrackets at hheight
  have hshallow := compile_shallow (by omega) hfault
  intro hcause
  simp [Fault.isDeep, hcause] at hshallow

/-- Text never nests too deep. A program is less high than the brackets of the value that it is read
from nest; so one that is read from text never fails for its nesting, unless the limit on it is
lower than the one on brackets. -/
theorem text_never_too_deep :
    (∀ value program, Program.ofJson? value = some program → program.height < value.depth) ∧
      (∀ text program, Program.ofText? text = some program →
        ∀ options : Options, 126 ≤ options.maxDepth →
          ∀ fault n, (compile options program).value = .error fault → fault.cause ≠ .tooDeep n) ∧
      ∀ text program, Program.ofText? text = some program →
        ∀ fault n, (compile .default program).value = .error fault → fault.cause ≠ .tooDeep n := by
  refine ⟨fun _ _ => Program.height_lt_depth, fun _ _ h options hlimit fault n hfault => ?_,
    fun _ _ h fault n hfault => ?_⟩
  · exact compile_text_shallow h hlimit hfault n
  · exact compile_text_shallow h (by decide) hfault n

/-- The text of a program that writes an unbound name. -/
def unboundText : String :=
  "[\"P\",\"VOID\",[],[[[\"Write\",[\"Ident\",\"x\",\"INT\"]]]]]"

theorem unbound_never_too_deep :
    ∃ value program, Program.ofJson? value = some program ∧ program.height < value.depth ∧
      Program.ofText? unboundText = some program ∧
      (∃ fault, (compile { Options.default with maxDepth := 126 } program).value = .error fault ∧
        ∀ n, fault.cause ≠ .tooDeep n) ∧
      ∃ fault, (compile .default program).value = .error fault ∧ ∀ n, fault.cause ≠ .tooDeep n := by
  have hfaults : (Program.ofText? unboundText).map (fun program =>
        ((compile { Options.default with maxDepth := 126 } program).value,
          (compile .default program).value)) =
      some (.error ⟨.unresolved "x", ⟨0, 0⟩⟩, .error ⟨.unresolved "x", ⟨0, 0⟩⟩) := by
    decide +kernel
  obtain ⟨program, htext, hfaults⟩ := Option.map_eq_some_iff.1 hfaults
  obtain ⟨hlow, hdefault⟩ := Prod.mk.inj hfaults
  obtain ⟨value, -, hvalue⟩ := Program.exists_value_of_ofText? htext
  obtain ⟨hheight, hlimit, hnever⟩ := text_never_too_deep
  exact ⟨value, program, hvalue, hheight _ _ hvalue, htext,
    ⟨_, hlow, fun n => hlimit _ _ htext _ (by decide) _ n hlow⟩,
    ⟨_, hdefault, fun n => hnever _ _ htext _ n hdefault⟩⟩

end PixelJava
