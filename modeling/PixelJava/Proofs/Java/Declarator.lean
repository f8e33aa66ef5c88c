/-
The variables that code declares, each as the text has it: with its type right in front of it. They
are those of the parameters and of the declaring statements, in the order of the text.
-/
import PixelJava.Proofs.Java.Visibility

namespace PixelJava.Java

/-! ## Declarators -/

/-- The declared variables, each with the text right in front of it; `before` is what stands in
front of the code. -/
def Code.declaratorsAfter (before : String) : Code → List (String × String)
  | [] => []
  | .declare name :: rest => (before, name) :: Code.declaratorsAfter name rest
  | piece :: rest => Code.declaratorsAfter piece.shown rest

def Code.declarators (code : Code) : List (String × String) :=
  Code.declaratorsAfter "" code

/-- A variable as it is declared. -/
def Param.declarator (p : Param) : String × String :=
  (p.type.java ++ " ", p.name)

/-- The code declares the variables `vars`, in this order, wherever it stands. -/
def Declares (code : Code) (vars : List Param) : Prop :=
  ∀ (before : String) (rest : Code), ∃ last,
    Code.declaratorsAfter before (code ++ rest) =
      vars.map Param.declarator ++ Code.declaratorsAfter last rest

theorem Declares.declarators {code : Code} {vars : List Param} (h : Declares code vars) :
    code.declarators = vars.map Param.declarator := by
  obtain ⟨last, hlast⟩ := h "" []
  rwa [List.append_nil, Code.declaratorsAfter, List.append_nil] at hlast

/-- The name that a piece declares. -/
def Piece.declared? : Piece → Option String
  | .declare name => some name
  | _ => none

/-- Scanning collects what the pieces declare. -/
theorem Code.declared_scan (code : Code) (st : Scan) :
    (Code.scan code st).declared = st.declared ++ code.filterMap Piece.declared? := by
  induction code generalizing st with
  | nil => exact (List.append_nil _).symm
  | cons piece rest ih =>
    rw [Code.scan, List.foldl_cons, ← Code.scan, ih]
    cases piece with
    | declare name => simp [Scan.step, Piece.declared?]
    | _ => rfl

namespace Declares

variable {code code' : Code} {vars vars' : List Param}

theorem nil : Declares [] [] :=
  fun before _ => ⟨before, rfl⟩

/-- Code declares what its parts declare, in the order of the parts. -/
theorem append (h : Declares code vars) (h' : Declares code' vars') :
    Declares (code ++ code') (vars ++ vars') := by
  intro before rest
  obtain ⟨middle, hmiddle⟩ := h before (code' ++ rest)
  obtain ⟨last, hlast⟩ := h' middle rest
  refine ⟨last, ?_⟩
  rw [List.append_assoc, hmiddle, hlast, List.map_append, List.append_assoc]

/-- Code that declares nothing. -/
theorem none (h : code.filterMap Piece.declared? = []) : Declares code [] := by
  induction code with
  | nil => exact nil
  | cons piece rest ih =>
    intro before after
    cases piece with
    | declare name => cases h
    | text s => exact ih h s after
    | use id => exact ih h id after
    | opens mark => exact ih h mark after
    | closes mark => exact ih h mark after

/-- Code that only uses variables declares none. -/
theorem of_shows {ids : List String} (h : Shows code ids) : Declares code [] := by
  have hdeclared := congrArg Scan.declared (h .start)
  rw [Code.declared_scan] at hdeclared
  exact none (List.append_cancel_left (hdeclared.trans (List.append_nil _).symm))

theorem after (text : String) (h : Declares code vars) : Declares (plain text ++ code) vars :=
  (none rfl : Declares (plain text) []).append h

theorem before (h : Declares code vars) (text : String) : Declares (code ++ plain text) vars := by
  have htext := h.append (none rfl : Declares (plain text) [])
  rwa [List.append_nil] at htext

theorem enclosed (opening closing : String) (h : Declares code vars) :
    Declares (enclosed opening closing code) vars := by
  have hopen := (none rfl : Declares [.opens opening] []).append h
  have hclose := hopen.append (none rfl : Declares [.closes closing] [])
  rwa [List.append_nil] at hclose

theorem param (p : Param) : Declares p.code [p] :=
  fun _ _ => ⟨p.name, rfl⟩

/-- Parameters are declared as they are listed. -/
theorem params (ps : List Param) : Declares (separated (ps.map Param.code)) ps := by
  induction ps with
  | nil => exact nil
  | cons p rest ih =>
    cases rest with
    | nil => exact param p
    | cons next rest => exact ((param p).before ", ").append ih

end Declares

/-! ## Variables of statements -/

mutual

/-- The local variables that a statement declares, in the order of the text. -/
def Stmt.locals : Stmt → List Param
  | .nothing | .assign .. | .perform _ | .setPixel .. | .ret _ => []
  | .declare type name _ => [⟨type, name⟩]
  | .block body => bodyLocals body
  | .choose branches | .loop branches _ => branchesLocals branches

def bodyLocals : List Stmt → List Param
  | [] => []
  | stmt :: rest => stmt.locals ++ bodyLocals rest

def branchesLocals : List Branch → List Param
  | [] => []
  | .mk _ body :: rest => bodyLocals body ++ branchesLocals rest

end

mutual

/-- A statement declares its local variables, those in its blocks included. -/
theorem Stmt.declares_code : ∀ stmt : Stmt, Declares stmt.code stmt.locals
  | .nothing => .nil
  | .declare type name Option.none => (Declares.param ⟨type, name⟩).before _
  | .declare type name (some value) =>
    (((Declares.param ⟨type, name⟩).before _).append (.of_shows value.shows_code)).before _
  | .assign name value => .of_shows (shows_assign name value)
  | .perform value => .of_shows (shows_perform value)
  | .setPixel image x y value => .of_shows (shows_setPixel image x y value)
  | .ret value => ((Declares.of_shows value.shows_code).after _).before _
  | .block body => ((declares_bodyCode body).enclosed _ _).before _
  | .choose branches => by
    have hbranches := declares_branchesCode " else " branches
    have hchoice := hbranches.append (Declares.nil.enclosed "\x7b\n" "\x7d")
    rw [List.append_nil] at hchoice
    exact hchoice.before _
  | .loop branches guard => by
    have hbody := ((declares_branchesCode "\n" branches).enclosed "\x7b\n" "\x7d").after "do "
    have hloop := (hbody.before " while (").append (.of_shows guard.shows_code)
    rw [List.append_nil] at hloop
    exact hloop.before _

theorem declares_bodyCode : ∀ body : List Stmt, Declares (bodyCode body) (bodyLocals body)
  | [] => .nil
  | stmt :: rest => stmt.declares_code.append (declares_bodyCode rest)

theorem declares_branchesCode (after : String) : ∀ branches : List Branch,
    Declares (branchesCode after branches) (branchesLocals branches)
  | [] => .nil
  | .mk guard body :: rest => by
    have hguard := ((Declares.of_shows guard.shows_code).after "if (").before ") "
    have hbody := hguard.append ((declares_bodyCode body).enclosed "\x7b\n" "\x7d")
    exact (hbody.before after).append (declares_branchesCode after rest)

end

/-- A unit declares its parameters and the local variables of its body. -/
theorem SourceUnit.declares_code (u : SourceUnit) :
    Declares u.code (u.params ++ bodyLocals u.body) := by
  have hbody := (declares_bodyCode u.body).enclosed "\x7b\n" "\x7d"
  have hmethod := (((Declares.params u.params).before ") ").append hbody).enclosed "(" "\n"
  exact (hmethod.after _).before _

end PixelJava.Java
