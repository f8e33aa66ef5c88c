/-
A run of the command, in any surroundings. It reads the config file and the input, compiles, and
only then writes. Main statement: when a step before the writing fails, nothing is printed and no
file changes; otherwise, when the files to write can be written, the source and the declaration
table go where the arguments say, and no other file changes.
-/
import PixelJava.Command.World
import PixelJava.Proofs.Command.Arguments
import PixelJava.Proofs.Command.Precedence

namespace PixelJava.Command

variable {Place : Type}

/-! ## What a run finds -/

namespace World

end World

/-! ## The disk -/

namespace Disk

variable [DecidableEq Place]

variable (d : Disk Place) (path? : Option String) (text : String)

variable {d path? text}

end Disk

/-! ## Steps before the writing -/

/-- A step of a run gives a result and leaves the surroundings so. -/
def Gives {α : Type} (x : ExceptT Failure (StateM (World Place)) α) (w : World Place)
    (result : Except Failure α) (after : World Place) : Prop :=
  x.run.run w = (result, after)

/-- A step gives a value, or fails if there is none, and changes nothing. -/
def Reads {α : Type} (x : ExceptT Failure (StateM (World Place)) α) (w : World Place) :
    Option α → Prop
  | some value => Gives x w (.ok value) w
  | none => ∃ failure, Gives x w (.error failure) w

section Steps

variable {α β : Type} {x : ExceptT Failure (StateM (World Place)) α}
  {f : α → ExceptT Failure (StateM (World Place)) β} {w after : World Place}

theorem Gives.bind {value : α} {middle : World Place} {result : Except Failure β}
    (hx : Gives x w (.ok value) middle) (hf : Gives (f value) middle result after) :
    Gives (x >>= f) w result after := by
  unfold Gives at *
  rw [ExceptT.run_bind, StateT.run_bind, hx]
  exact hf

theorem Gives.bind_error {failure : Failure} (hx : Gives x w (.error failure) after) :
    Gives (x >>= f) w (.error failure) after := by
  unfold Gives at *
  rw [ExceptT.run_bind, StateT.run_bind, hx]
  rfl

/-- Steps that change nothing can be taken one after the other, as long as they give a value. -/
theorem Reads.bind {value? : Option α} {g : α → Option β} (hx : Reads x w value?)
    (hf : ∀ value, Reads (f value) w (g value)) : Reads (x >>= f) w (value?.bind g) := by
  cases value? with
  | none =>
    obtain ⟨failure, hx⟩ := hx
    exact ⟨failure, hx.bind_error⟩
  | some value =>
    rw [Option.bind_some]
    have hvalue := hf value
    cases hg : g value with
    | none =>
      rw [hg] at hvalue
      obtain ⟨failure, hvalue⟩ := hvalue
      exact ⟨failure, Gives.bind hx hvalue⟩
    | some result =>
      rw [hg] at hvalue
      exact Gives.bind hx hvalue

theorem Reads.map {value? : Option α} (hx : Reads x w value?) (g : α → β) :
    Reads (do return g (← x)) w (value?.map g) := by
  cases value? with
  | none =>
    obtain ⟨failure, hx⟩ := hx
    exact ⟨failure, hx.bind_error⟩
  | some value => exact Gives.bind hx rfl

end Steps

open World (access)

variable [DecidableEq Place] (w : World Place) (a : Arguments)

variable {w a}

end PixelJava.Command
