/-
The imports of a unit are exact: a library class is imported just if its name is an identifier of the
emitted class. The class cites the libraries that carry out its code, which lowering has noted on its
way; only the size that a declaration gives to a variable that is no image is noted and not written.
-/
import PixelJava.Proofs.Java.Citation
import PixelJava.Proofs.Java.Header
import PixelJava.Proofs.Lowering.Reachable
import Mathlib.Data.List.Count
import Mathlib.Data.List.Nodup

namespace PixelJava

variable {limit : UInt64} {level : Nat} {s : Scopes} {lib : Java.Library}

/-! ## Expressions -/

/-- Whether a text has nothing but digits. -/
def isDigits (text : String) : Bool :=
  text.toList.all Char.isDigit

/-- No name and no literal of a program is the name of a class. -/
theorem leafRule_cites :
    LeafRule isDigits Java.isStringLiteral fun leaf => Java.Cites leaf.toList [] where
  name _ h := Java.cites_of_isName h
  bool value := by
    cases value <;> exact Java.Cites.of_isMark (by decide +kernel)
  integer _ := Java.cites_of_digits fun _ => Java.mem_integerText
  num _ h := Java.cites_of_digits fun c hc => .inl (List.all_eq_true.1 h c hc)
  str _ h := Java.cites_of_isStringLiteral h

theorem Java.Operation.owner_of_isInPlace {how : Java.Operation} (h : how.isInPlace = true) :
    how.owner? = some Java.Method.copyInto.owner := by
  revert h
  cases how <;> decide

/-- An operation whose result goes into a variable is carried out by the class that copies it. -/
theorem owner_of_inPlace {left right : Expr} {op : BinaryOp}
    (h : (inPlaceVariable? left op right).isSome = true) :
    (operationOf left op right).owner? = some Java.Method.copyInto.owner := by
  unfold inPlaceVariable? at h
  unfold operationOf
  cases hfind : Java.Operation.find? op left.type right.type with
  | none => simp [hfind] at h
  | some how =>
    have hplace : how.isInPlace = true := by
      cases hp : how.isInPlace with
      | true => rfl
      | false => simp [hfind, hp] at h
    exact Java.Operation.owner_of_isInPlace hplace

/-- An operation uses the class that computes it, and that which writes its result. -/
theorem mem_libs_operate {how : Java.Operation} {op : BinaryOp} {leftType : Ty}
    {left right : Java.Expr} {target : Option String} :
    lib ∈ (operate how op leftType left right target).libs ↔
      (target.isSome = true ∧ lib = Java.Method.copyInto.owner) ∨ lib ∈ how.owner?.toList ∨
        lib ∈ left.libs ∨ lib ∈ right.libs := by
  unfold operate
  cases target <;> split <;> grind [Java.Expr.libs]

/-- The classes that carry out the code of an expression are those that lowering notes. -/
theorem mem_libs_emit (names : String → String) (e : Expr) :
    lib ∈ (e.emit names).libs ↔ lib ∈ e.uses := by
  induction e with
  | ident | num | str | bool | const => rfl
  | cond guard whenTrue whenFalse type span ihg iht ihf =>
    simp only [Expr.emit, Expr.uses, Java.Expr.libs, List.mem_append, ihg, iht, ihf]
  | binary left op right type span ihl ihr =>
    simp only [Expr.emit, Expr.uses, mem_libs_operate, List.mem_append, ihl, ihr, Option.isSome_map]
    constructor
    · rintro (⟨htarget, rfl⟩ | hown | hleft | hright)
      · exact .inr (.inr (by rw [owner_of_inPlace htarget]; exact List.mem_cons_self))
      · exact .inr (.inr hown)
      · exact .inl hleft
      · exact .inr (.inl hright)
    · rintro (hleft | hright | hown)
      · exact .inr (.inr (.inl hleft))
      · exact .inr (.inr (.inr hright))
      · exact .inr (.inl hown)
  | unary op operand type span ih => exact ih
  | select primary channel type span ih =>
    cases channel with
    | none => exact ih
    | some c => grind [Expr.emit, Expr.uses, Java.Expr.libs]
  | selectAt primary x y place channel type span ih ihx ihy =>
    cases channel <;> grind [Expr.emit, Expr.uses, Java.Expr.libs]
  | pixel red green blue span ihr ihg ihb =>
    grind [Expr.emit, Expr.uses, Java.Expr.libs]

/-- An expression that can be lowered, with literals of the right kinds. -/
structure Citable (limit : UInt64) (s : Scopes) (level : Nat) (e : Expr) : Prop where
  clean : e.violations limit s.isBound level = []
  literals : e.literalsAre isDigits Java.isStringLiteral = true

theorem Citable.leaves {e : Expr} (h : Citable limit s level e) (hw : s.WF) :
    ∀ leaf ∈ (e.emit s.javaNameOf).leaves, Java.Cites leaf.toList [] :=
  leaves_emit leafRule_cites h.literals (isName_of_mentions hw h.clean)

/-- A checked expression cites just the classes that it uses. -/
theorem Citable.cites {e : Expr} (h : Citable limit s level e) (hw : s.WF) :
    Java.Cites (e.emit s.javaNameOf).text.toList e.uses :=
  (Java.Expr.cites_text (h.leaves hw)).congr fun _ => mem_libs_emit _ e

theorem citable_of_parts {parts : List Expr}
    (hclean : parts.flatMap (Expr.violations limit s.isBound level) = [])
    (hlit : ∀ e ∈ parts, e.literalsAre isDigits Java.isStringLiteral = true) :
    ∀ e ∈ parts, Citable limit s level e :=
  fun e he => ⟨List.flatMap_eq_nil_iff.1 hclean e he, hlit e he⟩

/-! ## Declarations -/

section Values

variable {initializer : Option (Ty × Java.Expr)} {size : Option (Java.Expr × Java.Expr)}

theorem leaves_imageValue :
    (imageValue initializer size).elim [] Java.Expr.leaves =
      initializer.elim [] (·.2.leaves) ++ size.elim [] fun p => p.1.leaves ++ p.2.leaves := by
  unfold imageValue
  cases initializer with
  | none => cases size <;> rfl
  | some value =>
    by_cases hstring : value.1 = .string <;> cases size <;> simp [Java.Expr.leaves, hstring]

theorem mem_libs_imageValue :
    lib ∈ (imageValue initializer size).elim [] Java.Expr.libs ↔
      lib ∈ initializer.elim [] (·.2.libs) ++ (size.elim [] fun p => p.1.libs ++ p.2.libs) ++
        valueUses .image (initializer.map (·.1)) size.isSome := by
  unfold imageValue valueUses
  cases initializer with
  | none => cases size <;> grind [Java.Expr.libs, Java.Method.owner]
  | some value =>
    by_cases hstring : value.1 = .string <;> cases size <;>
      grind [Java.Expr.libs, Java.Method.owner]

end Values

/-- The value that a declaration is written with. -/
def declaredValue (names : String → String) (defined : NameDef) (initializer : Option Expr) :
    Option Java.Expr :=
  if defined.type = .image then
    imageValue (initializer.map fun e => (e.type, e.emit names))
      (defined.dimension.map fun d => (d.width.emit names, d.height.emit names))
  else initializer.map (Expr.emit names)

theorem emitDeclaration_eq (defined : NameDef) (initializer : Option Expr) :
    emitDeclaration s defined initializer = .declare defined.type (s.nextName defined.name)
      (declaredValue s.javaNameOf defined initializer) := by
  unfold emitDeclaration declaration declaredValue
  rw [Option.map_map]
  rfl

/-- Whether a size is given to nothing but an image. -/
def NameDef.sizesImage (defined : NameDef) : Bool :=
  defined.dimension.isNone || defined.type = .image

section Declarations

variable {defined : NameDef} {initializer : Option Expr}

/-- The value of a declaration is made of the code of its parts. -/
theorem mem_leaves_declared {names : String → String} {leaf : String}
    (h : leaf ∈ (declaredValue names defined initializer).elim [] Java.Expr.leaves) :
    ∃ e ∈ declarationParts defined initializer, leaf ∈ (e.emit names).leaves := by
  unfold declaredValue at h
  unfold declarationParts
  by_cases himage : defined.type = .image
  · rw [if_pos himage, leaves_imageValue, List.mem_append] at h
    rcases h with h | h
    · cases initializer with
      | none => cases h
      | some e => exact ⟨e, List.mem_cons_self, h⟩
    · cases hd : defined.dimension with
      | none => simp [hd] at h
      | some d =>
        simp only [hd, Option.map_some, Option.elim_some, List.mem_append] at h
        rcases h with h | h
        · exact ⟨d.width, by simp, h⟩
        · exact ⟨d.height, by simp, h⟩
  · rw [if_neg himage] at h
    cases initializer with
    | none => cases h
    | some e => exact ⟨e, List.mem_cons_self, h⟩

/-- The value of a declaration uses the classes of its parts, and those that make it fit the type.
-/
theorem mem_libs_declared (names : String → String) (hsize : defined.sizesImage = true) :
    lib ∈ (declaredValue names defined initializer).elim [] Java.Expr.libs ↔
      lib ∈ (declarationParts defined initializer).flatMap Expr.uses ++
        valueUses defined.type (initializer.map Expr.type) defined.dimension.isSome := by
  unfold declaredValue declarationParts
  by_cases himage : defined.type = .image
  · rw [if_pos himage, mem_libs_imageValue, himage]
    cases initializer <;> cases defined.dimension <;> simp [mem_libs_emit]
  · -- without an image there is no size
    have hnone : defined.dimension = none := by
      simpa [NameDef.sizesImage, himage] using hsize
    rw [if_neg himage, hnone]
    cases initializer <;> simp [mem_libs_emit, valueUses, himage]

theorem cites_declaration (hw : s.WF) (hsize : defined.sizesImage = true)
    (hname : Java.isSourceName defined.name = true)
    (hparts : ∀ e ∈ declarationParts defined initializer, Citable limit s level e) :
    Java.Cites (emitDeclaration s defined initializer).text.toList
      ((declarationParts defined initializer).flatMap Expr.uses ++
        declarationUses defined initializer) := by
  rw [emitDeclaration_eq]
  have hvalue : ∀ v, declaredValue s.javaNameOf defined initializer = some v →
      Java.Cites v.text.toList v.libs := by
    intro v hv
    refine Java.Expr.cites_text fun leaf hleaf => ?_
    obtain ⟨e, he, hleaf⟩ := mem_leaves_declared (by rw [hv]; exact hleaf)
    exact (hparts e he).leaves hw leaf hleaf
  refine (Java.Cites.declare (Java.cites_of_isName (Scopes.isName_nextName hname)) hvalue).congr
    fun lib => ?_
  rw [List.mem_append, mem_libs_declared _ hsize]
  simp only [declarationUses, typeUses, List.mem_append]
  exact or_left_comm

end Declarations

/-! ## Assignments -/

/-- The new value of a pixel, one of whose channels is assigned. -/
theorem cites_setChannel (c : Channel) {old : Java.Expr} {value : Expr} (hw : s.WF)
    (hold : ∀ leaf ∈ old.leaves, Java.Cites leaf.toList []) (hvalue : Citable limit s level value) :
    Java.Cites (Java.Expr.call2 (.setChannel c) old (value.emit s.javaNameOf)).text.toList
      ((Java.Method.setChannel c).owner :: (old.libs ++ value.uses)) := by
  have hset : ∀ leaf ∈ (Java.Expr.call2 (.setChannel c) old (value.emit s.javaNameOf)).leaves,
      Java.Cites leaf.toList [] :=
    List.forall_mem_append.2 ⟨hold, hvalue.leaves hw⟩
  refine (Java.Expr.cites_text hset).congr fun lib => ?_
  simp only [Java.Expr.libs, List.mem_cons, List.mem_append, mem_libs_emit]

theorem cites_assignment {target : Target} {value : Expr} (hw : s.WF)
    (hbound : s.isBound target.name = true)
    (hparts : ∀ e ∈ assignmentParts target value, Citable limit s level e) :
    Java.Cites (emitAssignment s target value).text.toList
      ((assignmentParts target value).flatMap Expr.uses ++ target.uses) := by
  have hname : Java.Cites (s.javaNameOf target.name).toList [] :=
    Java.cites_of_isName (Scopes.isName_javaNameOf hw hbound)
  have hvalue := hparts value (by simp [assignmentParts])
  unfold emitAssignment Target.uses
  unfold assignmentParts at hparts ⊢
  cases hpixel : target.pixel with
  | none =>
    cases target.channel with
    | none =>
      have hcites : Java.Cites (value.emit s.javaNameOf).text.toList ([value].flatMap Expr.uses) := by
        simpa using hvalue.cites hw
      simp only [Option.elim_none, Option.isSome_none, Bool.false_eq_true, if_false, List.append_nil,
        List.nil_append]
      split
      · exact .perform hcites
      · exact .assign hname hcites
    | some c =>
      have hold : ∀ leaf ∈ (Java.Expr.name (s.javaNameOf target.name)).leaves,
          Java.Cites leaf.toList [] := List.forall_mem_singleton.2 hname
      have hset := cites_setChannel c.channel hw hold hvalue
      refine (Java.Cites.assign hname hset).congr fun lib => ?_
      simp [Java.Expr.libs, or_comm]
  | some p =>
    simp only [hpixel, Option.elim_some, List.cons_append, List.nil_append, List.forall_mem_cons]
      at hparts
    obtain ⟨hx, hy, -⟩ := hparts
    cases target.channel with
    | none =>
      refine (Java.Cites.setPixel hname (hx.cites hw) (hy.cites hw) (hvalue.cites hw)).congr
        fun lib => ?_
      grind
    | some c =>
      -- the channel is set in the pixel that stands at the place
      have hold : ∀ leaf ∈ (Java.Expr.call3 .getPixel (.name (s.javaNameOf target.name))
          (p.x.emit s.javaNameOf) (p.y.emit s.javaNameOf)).leaves, Java.Cites leaf.toList [] := by
        simp only [Java.Expr.leaves, List.forall_mem_append, List.forall_mem_singleton]
        exact ⟨hname, hx.leaves hw, hy.leaves hw⟩
      have hset := cites_setChannel c.channel hw hold hvalue
      refine (Java.Cites.setPixel hname (hx.cites hw) (hy.cites hw) hset).congr fun lib => ?_
      grind [Java.Expr.libs, mem_libs_emit, Java.Method.owner]

/-! ## Statements -/

/-- Whether the statement gives a size to nothing but an image, and the literals that stand directly
in it are digits and strings. -/
def Stmt.isRegular (stmt : Stmt) : Bool :=
  (match stmt with
    | .declare defined _ _ => defined.sizesImage
    | _ => true) &&
  stmt.parts.all (Expr.literalsAre isDigits Java.isStringLiteral)

theorem Stmt.literals_of_isRegular {stmt : Stmt} (h : stmt.isRegular = true) :
    ∀ e ∈ stmt.parts, e.literalsAre isDigits Java.isStringLiteral = true :=
  List.all_eq_true.1 (Bool.and_eq_true_iff.1 h).2

theorem cites_write {value : Expr} (hw : s.WF) (hvalue : Citable limit s level value) :
    Java.Cites (Java.Stmt.perform (.call1 (if value.type = .pixel then .writePixel else .write)
      (value.emit s.javaNameOf))).text.toList (value.uses ++ [Java.Method.write.owner]) := by
  have howner : (if value.type = .pixel then Java.Method.writePixel else .write).owner =
      Java.Method.write.owner := by
    split <;> rfl
  have hcall : ∀ leaf ∈ (Java.Expr.call1 (if value.type = .pixel then .writePixel else .write)
      (value.emit s.javaNameOf)).leaves, Java.Cites leaf.toList [] := hvalue.leaves hw
  refine (Java.Cites.perform (Java.Expr.cites_text hcall)).congr fun lib => ?_
  rw [Java.Expr.libs, howner, List.mem_cons, mem_libs_emit, List.mem_append, List.mem_singleton]
  exact or_comm

mutual

/-- A checked statement cites just the classes that it uses: the induction is on the statement, with
the scopes that each part is emitted in. -/
theorem cites_stmt (level : Nat) (s : Scopes) (hw : s.WF) : ∀ stmt : Stmt,
    stmt.violations limit s.around level = [] → (∀ node ∈ stmt.nodes, node.isRegular = true) →
      Java.Cites (stmt.emit s).text.toList stmt.uses
  | .declare defined initializer span, h, hregular => by
    rw [Stmt.violations, s.declares_around, List.append_eq_nil_iff, require_eq_nil] at h
    have hstmt := hregular _ List.mem_cons_self
    exact cites_declaration hw (Bool.and_eq_true_iff.1 hstmt).1 h.2
      (citable_of_parts h.1 (Stmt.literals_of_isRegular hstmt))
  | .assign target value span, h, hregular => by
    rw [Stmt.violations, s.declares_around, List.append_eq_nil_iff] at h
    have hstmt := hregular _ List.mem_cons_self
    exact cites_assignment hw (Scopes.isBound_of_target h.1)
      (citable_of_parts h.2 (Stmt.literals_of_isRegular hstmt))
  | .write value span, h, hregular => by
    rw [Stmt.violations, s.declares_around] at h
    have hstmt := Stmt.literals_of_isRegular (hregular _ List.mem_cons_self)
    exact cites_write hw ⟨h, hstmt value List.mem_cons_self⟩
  | .ret value span, h, hregular => by
    rw [Stmt.violations, s.declares_around] at h
    have hstmt := Stmt.literals_of_isRegular (hregular _ List.mem_cons_self)
    have hvalue : Citable limit s level value := ⟨h, hstmt value List.mem_cons_self⟩
    exact .ret (hvalue.cites hw)
  | .loop branches span, h, hregular => by
    rw [Stmt.violations] at h
    have hstmt := Stmt.literals_of_isRegular (hregular _ List.mem_cons_self)
    have hbranches := cites_branches level "\n" (by decide +kernel) s hw branches h hstmt
      fun node hnode => hregular node (List.mem_cons_of_mem _ hnode)
    rw [Stmt.emit, Stmt.uses]
    cases hlast : branches.getLast? with
    | none =>
      obtain rfl := List.getLast?_eq_none_iff.1 hlast
      exact .nothing
    | some last =>
      have hmem := List.mem_of_getLast? hlast
      have hguard : Citable limit s level last.guard := by
        refine ⟨?_, hstmt _ (List.mem_map_of_mem hmem)⟩
        rw [← s.declares_around]
        exact guard_clean h hmem
      refine (Java.Cites.loop hbranches (hguard.cites hw)).congr fun lib => ?_
      rw [List.mem_append, or_iff_left_of_imp (guard_uses hmem)]
  | .choose branches span, h, hregular => by
    rw [Stmt.violations] at h
    have hstmt := Stmt.literals_of_isRegular (hregular _ List.mem_cons_self)
    have hbranches := cites_branches level " else " (by decide +kernel) s hw branches h hstmt
      fun node hnode => hregular node (List.mem_cons_of_mem _ hnode)
    rw [Stmt.emit, Stmt.uses]
    cases branches with
    | nil => exact .nothing
    | cons branch rest =>
      cases branch
      exact .choose hbranches
  | .block block, h, hregular => by
    rw [Stmt.violations] at h
    exact .block (cites_block level s hw block h fun node hnode =>
      hregular node (List.mem_cons_of_mem _ hnode))

theorem cites_block (level : Nat) (s : Scopes) (hw : s.WF) : ∀ block : Block,
    block.violations limit s.around level = [] → (∀ node ∈ block.nodes, node.isRegular = true) →
      Java.Cites (Java.bodyText (block.emit s)).toList block.uses
  | .mk body span, h, hregular => by
    rw [Block.violations, List.append_eq_nil_iff] at h
    exact cites_body (level + 1) s.enter (Scopes.enter_wf hw) body h.2 hregular

theorem cites_body (level : Nat) (s : Scopes) (hw : s.WF) : ∀ body : List Stmt,
    bodyViolations limit s.around level body = [] →
      (∀ node ∈ bodyNodes body, node.isRegular = true) →
        Java.Cites (Java.bodyText (emitBody s body)).toList (bodyUses body)
  | [], _, _ => .nothing
  | stmt :: rest, h, hregular => by
    rw [bodyViolations, List.append_eq_nil_iff, ← stmt.around_scopesAfter] at h
    rw [bodyNodes, List.forall_mem_append] at hregular
    have hw' : (stmt.scopesAfter s).WF := (scans_stmt level s stmt h.1 hw).1
    exact .body_cons (cites_stmt level s hw stmt h.1 hregular.1)
      (cites_body level (stmt.scopesAfter s) hw' rest h.2 hregular.2)

theorem cites_branches (level : Nat) (after : String)
    (hafter : (Java.isClosing after && Java.isOpening after) = true) (s : Scopes) (hw : s.WF) :
    ∀ branches : List Branch, branchesViolations limit s.around level branches = [] →
      (∀ guard ∈ branches.map Branch.guard,
        guard.literalsAre isDigits Java.isStringLiteral = true) →
      (∀ node ∈ branchesNodes branches, node.isRegular = true) →
        Java.Cites (Java.branchesText after (emitBranches s branches)).toList
          (branchesUses branches)
  | [], _, _, _ => .nothing
  | .mk guard block span :: rest, h, hguards, hregular => by
    rw [branchesViolations, List.append_eq_nil_iff, List.append_eq_nil_iff, s.declares_around] at h
    rw [List.map_cons, List.forall_mem_cons] at hguards
    rw [branchesNodes, List.forall_mem_append] at hregular
    have hguard : Citable limit s level guard := ⟨h.1, hguards.1⟩
    have hw' : (block.scopesAfter s).WF := (scans_block level s block h.2.1 hw).1
    exact .branches_cons hafter (hguard.cites hw)
      (cites_block level s hw block h.2.1 hregular.1)
      (cites_branches level after hafter (block.scopesAfter s) hw' rest
        (by rw [block.around_scopesAfter]; exact h.2.2) hguards.2 hregular.2)

end

/-! ## Programs -/

theorem cites_params : ∀ (s : Scopes) (params : List NameDef),
    params.flatMap NameDef.violations = [] →
      Java.Cites (Java.commas ((emitParams s params).map Java.Param.text)).toList
        (params.flatMap fun param => typeUses param.type)
  | s, [], _ => .nothing
  | s, param :: rest, h => by
    rw [List.flatMap_cons, List.append_eq_nil_iff, NameDef.violations, require_eq_nil] at h
    have hparam := Java.Cites.between " " (by decide +kernel) (Java.cites_type param.type)
      (Java.cites_of_isName (Scopes.isName_nextName (s := s) h.1))
    rw [List.append_nil] at hparam
    have hrest := cites_params (s.add param.name param.type param.span).2 rest h.2
    rw [List.flatMap_cons, emitParams, List.map_cons, Java.commas]
    cases rest with
    | nil =>
      rw [emitParams, List.map_nil, String.intercalate_singleton, List.flatMap_nil, List.append_nil]
      exact hparam
    | cons next rest =>
      rw [emitParams, List.map_cons] at hrest ⊢
      rw [String.intercalate_cons_cons]
      exact .between ", " (by decide +kernel) hparam hrest

namespace Program

/-- The class that a program is emitted as cites just the classes that the program uses. -/
theorem cites_classText {options : Options} {program : Program}
    (h : program.violations options = [])
    (hregular : ∀ stmt ∈ program.block.nodes, stmt.isRegular = true) :
    Java.Cites (program.unit options).classText.toList program.uses := by
  simp only [violations, Options.violations, List.append_eq_nil_iff, require_eq_nil] at h
  obtain ⟨⟨-, -, hentry⟩, hname, hparams, hblock⟩ := h
  have hw : program.blockScopes.WF :=
    (scans_params Scopes.empty.enter program.params hparams (Scopes.enter_wf Scopes.empty_wf)).1
  rw [← program.around_blockScopes] at hblock
  have hbody := cites_block 0 program.blockScopes hw program.block hblock hregular
  have hmethod := ((Java.Cites.between ") " (by decide +kernel)
    (cites_params Scopes.empty.enter program.params hparams) hbody.braced).after "("
      (by decide +kernel)).before "\n" (by decide +kernel)
  have hhead := Java.Cites.between " " (by decide +kernel)
    ((Java.cites_type program.type).after "public static " (by decide +kernel))
    (Java.cites_of_isName hentry)
  -- the name of the method ends at the parenthesis
  have hmember := hhead.append hmethod (.inr (by
    rw [String.append_assoc, String.toList_append]
    exact Java.startsBroken_append _ (by decide) (by decide)))
  rw [← String.toList_append] at hmember
  have hclass := Java.Cites.between " \x7b\n" (by decide +kernel)
    ((Java.cites_of_isName hname).after "public class " (by decide +kernel))
    (hmember.before "\x7d\n" (by decide +kernel))
  refine hclass.congr fun lib => ?_
  simp only [uses, typeUses, List.mem_append, List.not_mem_nil]
  grind

/-- Of a program without violations the source imports what the program uses, and this is what its
class cites. -/
theorem imports_of_clean {options : Options} {program : Program}
    (h : program.violations options = [])
    (hregular : ∀ stmt ∈ program.block.nodes, stmt.isRegular = true) :
    Java.importLines (program.compilation options).source =
        (importsOf program.uses).map (Java.importLine options.libraryPackage) ∧
      ∀ lib : Java.Library, lib.name.toList ∈
        Java.identifiers (Java.classLines (program.compilation options).source) ↔
          lib ∈ program.uses := by
  have hcites := cites_classText h hregular
  simp only [violations, Options.violations, List.append_eq_nil_iff, require_eq_nil] at h
  obtain ⟨⟨hpackage, hhome, -⟩, hname, -⟩ := h
  have hpackage : ∀ p, options.package = some p → Java.isPackage p = true := by
    intro p hp
    simpa [hp] using hpackage
  obtain ⟨rest, hlines, hwords⟩ := Java.SourceUnit.lines_unit (u := program.unit options) hname
    hpackage hhome options.pretty
  obtain ⟨himports, hclass⟩ := Java.importLines_of_lines (Java.headerLine_of_mem hpackage hhome)
    (Java.SourceUnit.isClassLine_classLine _) hlines
  refine ⟨himports, fun lib => ?_⟩
  rw [← hcites.cited, ← hwords]
  exact iff_of_eq (congrArg (fun lines => lib.name.toList ∈ Java.identifiers lines) hclass)

end Program

/-- The imports of a program are exact. The import lines of the source are those of the classes whose
names are identifiers of the emitted class, in the order of the classes, and each is there once. -/
theorem compile_imports_exact {options : Options} {program : Program} {c : Compilation}
    (h : (compile options program).value = .ok c)
    (hregular : ∀ stmt ∈ program.block.nodes, stmt.isRegular = true) :
    let cited (lib : Java.Library) :=
      lib.name.toList ∈ Java.identifiers (Java.classLines c.source)
    Java.importLines c.source =
        (Java.Library.all.filter fun lib => cited lib).map
          (Java.importLine options.libraryPackage) ∧
      ∀ lib, (Java.importLines c.source).count (Java.importLine options.libraryPackage lib) =
        if cited lib then 1 else 0 := by
  intro cited
  rw [compile_value] at h
  obtain ⟨hclean, rfl⟩ := accept_eq_ok h
  obtain ⟨himports, hcited⟩ := Program.imports_of_clean hclean hregular
  have hlines : Java.importLines (program.compilation options).source =
      (Java.Library.all.filter fun lib => cited lib).map
        (Java.importLine options.libraryPackage) := by
    rw [himports, importsOf]
    refine congrArg (List.map _) (List.filter_congr fun lib _ => ?_)
    simp [cited, hcited]
  refine ⟨hlines, fun lib => ?_⟩
  have hnodup : (Java.Library.all.filter fun lib => cited lib).Nodup :=
    (by decide : Java.Library.all.Nodup).filter _
  rw [hlines, List.count_map_of_injective _ _ (fun _ _ => Java.importLine_injective _),
    hnodup.count]
  simp [lib.mem_all]

/-- A program that reads and resizes an image and writes a string. The name of the pixel class stands
in literals and is that of a parameter, but no code calls the class. -/
def gallery : Program where
  name := "Gallery"
  type := .int
  params := [⟨"PixelOps", .int, none, .zero⟩]
  block :=
    let width : Expr := .ident "PixelOps" .int .zero
    let address : Expr := .str "\"PixelOps.png\"" .zero
    .mk [.declare ⟨"wall", .image, some ⟨width, .num "2" .zero, .zero⟩, .zero⟩ (some address) .zero,
      .write (.str "\"PixelOps \\\" PixelOps\"" .zero) .zero,
      .ret width .zero] .zero
  span := .zero

theorem gallery_imports :
    importsOf gallery.uses = [.console, .images, .files, .raster] ∧
      (∀ stmt ∈ gallery.block.nodes, stmt.isRegular = true) ∧
      ∃ c, (compile .default gallery).value = .ok c ∧
        let cited (lib : Java.Library) :=
          lib.name.toList ∈ Java.identifiers (Java.classLines c.source)
        Java.importLines c.source =
            (Java.Library.all.filter fun lib => cited lib).map
              (Java.importLine Options.default.libraryPackage) ∧
          ∀ lib, (Java.importLines c.source).count
            (Java.importLine Options.default.libraryPackage lib) = if cited lib then 1 else 0 := by
  have hregular : ∀ stmt ∈ gallery.block.nodes, stmt.isRegular = true := by decide +kernel
  have hclean : gallery.violations .default = [] := by decide +kernel
  have h : (compile .default gallery).value = .ok (gallery.compilation .default) := by
    rw [compile_value, hclean]
    rfl
  exact ⟨by decide, hregular, _, h, compile_imports_exact h hregular⟩

end PixelJava
