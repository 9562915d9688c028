import Mathlib.Data.List.Basic

/-
  A box of at most `n` values with two ends, and the calls that go through on it, as a log.
-/

namespace Live2dStm32.Lib

inductive BoxEvent (α : Type) where
  | sent (value : α)
  | urgent (value : α)
  | received (value : α)
  deriving DecidableEq, Repr

variable {α : Type} [DecidableEq α] {n : Nat} {box box' : List α} {log : List (BoxEvent α)}
  {event : BoxEvent α} {value : α}

/-- A value goes in at the end, an urgent one at the front, where they are taken out. -/
def boxStep (n : Nat) (box : List α) : BoxEvent α → Option (List α)
  | .sent value => if box.length < n then some (box ++ [value]) else none
  | .urgent value => if box.length < n then some (value :: box) else none
  | .received value => if box.head? = some value then some box.tail else none

/-- The box after the calls of a log, when they are calls of a box. -/
def boxRun (n : Nat) (log : List (BoxEvent α)) : Option (List α) := log.foldlM (boxStep n) []

theorem boxRun_concat (h : boxRun n log = some box) (hstep : boxStep n box event = some box') :
    boxRun n (log ++ [event]) = some box' := by
  unfold boxRun at h ⊢
  rw [List.foldlM_append, h]
  change (boxStep n box event).bind some = some box'
  rw [hstep]
  rfl

theorem boxStep_sent (h : box.length < n) :
    boxStep n box (.sent value) = some (box ++ [value]) := if_pos h

theorem boxStep_urgent (h : box.length < n) :
    boxStep n box (.urgent value) = some (value :: box) := if_pos h

theorem boxStep_received : boxStep n (value :: box) (.received value) = some box := if_pos rfl

end Live2dStm32.Lib
