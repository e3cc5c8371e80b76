import Mathlib.Algebra.Order.Field.Rat
import Dormant.StateMachine.Types

/-!
# Apportioning wear

`build_old_prefix`, `hamilton_distribute` and `apportion_nanos` of `wear.rs`. Arithmetic on `u128`
and indexing are checked, and nothing comes of a panic.
-/

namespace Dormant
set_option autoImplicit false

/-! ## Machine arithmetic -/

def U128.size : ℕ := 340282366920938463463374607431768211456

def U128.add (a b : ℕ) : Option ℕ := if a + b < U128.size then some (a + b) else none

def U128.sub (a b : ℕ) : Option ℕ := if b ≤ a then some (a - b) else none

def U128.mul (a b : ℕ) : Option ℕ := if a * b < U128.size then some (a * b) else none

/-- `as u32`. -/
def asU32 (n : ℕ) : ℕ := n % UInt32.size

/-- `as usize`. -/
def asUsize (n : ℕ) : ℕ := n % UInt64.size

/-- `u32::try_from`. -/
def tryU32 (n : ℕ) : Option ℕ := if n < UInt32.size then some n else none

/-- `xs[i] = a`. -/
def setIndex {α : Type} (xs : List α) (i : ℕ) (a : α) : Option (List α) :=
  if i < xs.length then some (xs.set i a) else none

def assert (condition : Prop) [Decidable condition] : Option Unit :=
  if condition then some () else none

/-! ## Prefix sums -/

/-- What `apportion_nanos` is given. -/
structure Regrid where
  oldNanos : List UInt64
  oldRows : ℕ
  oldCols : ℕ
  newRows : ℕ
  newCols : ℕ

namespace Regrid
variable (g : Regrid)

def stride : ℕ := g.oldCols + 1

def prefixCell (oldR : ℕ) (table : List ℕ × ℕ) (oldC : ℕ) : Option (List ℕ × ℕ) := do
  let cell ← g.oldNanos[oldR * g.oldCols + oldC]?
  let rowSum ← U128.add table.2 cell.toNat
  let above ← table.1[oldR * g.stride + oldC + 1]?
  let sum ← U128.add above rowSum
  let sums ← setIndex table.1 ((oldR + 1) * g.stride + oldC + 1) sum
  return (sums, rowSum)

def prefixRow (sums : List ℕ) (oldR : ℕ) : Option (List ℕ) := do
  let table ← (List.range g.oldCols).foldlM (g.prefixCell oldR) (sums, 0)
  return table.1

def buildOldPrefix : Option (List ℕ) :=
  (List.range g.oldRows).foldlM g.prefixRow (List.replicate ((g.oldRows + 1) * g.stride) 0)

/-! ## The area integral -/

def newCount : ℕ := g.newRows * g.newCols

def newCountU : Option ℕ := U128.mul (asU32 g.newRows) (asU32 g.newCols)

def prefixAt (sums : List ℕ) (row col : ℕ) : Option ℕ := sums[row * (g.oldCols + 1) + col]?

/-- `total += a * b * c`. -/
def accumulate (total a b c : ℕ) : Option ℕ := do
  let product ← U128.mul a b
  U128.add total (← U128.mul product c)

def addColumn (sums : List ℕ) (fullRows fullCols colFraction full total : ℕ) : Option ℕ :=
  if colFraction ≠ 0 then do
    let columnSum ← U128.sub (← g.prefixAt sums fullRows (fullCols + 1)) full
    accumulate total columnSum (asU32 g.newRows) (← tryU32 colFraction)
  else some total

def addRow (sums : List ℕ) (fullRows fullCols rowFraction full total : ℕ) : Option ℕ :=
  if rowFraction ≠ 0 then do
    let rowSum ← U128.sub (← g.prefixAt sums (fullRows + 1) fullCols) full
    accumulate total rowSum (← tryU32 rowFraction) (asU32 g.newCols)
  else some total

def addCorner (fullRows fullCols rowFraction colFraction total : ℕ) : Option ℕ :=
  if rowFraction ≠ 0 ∧ colFraction ≠ 0 then do
    let corner ← g.oldNanos[fullRows * g.oldCols + fullCols]?
    accumulate total corner.toNat (← tryU32 rowFraction) (← tryU32 colFraction)
  else some total

def cumulativeNumerator (sums : List ℕ) (newCountU newRowEdge newColEdge : ℕ) : Option ℕ := do
  let rowScaled := newRowEdge * g.oldRows
  let fullRows := rowScaled / g.newRows
  let rowFraction := rowScaled % g.newRows
  let colScaled := newColEdge * g.oldCols
  let fullCols := colScaled / g.newCols
  let colFraction := colScaled % g.newCols
  let full ← g.prefixAt sums fullRows fullCols
  let total ← U128.mul full newCountU
  let total ← g.addColumn sums fullRows fullCols colFraction full total
  let total ← g.addRow sums fullRows fullCols rowFraction full total
  g.addCorner fullRows fullCols rowFraction colFraction total

/-- What the loop over the new cells keeps. -/
structure Floors where
  newNanos : List ℕ
  fractionalRemainders : List ℕ
  floorTotal : ℕ
  deriving DecidableEq, Repr

def floorCell (sums : List ℕ) (newCountU newR : ℕ) (floors : Floors) (newC : ℕ) :
    Option Floors := do
  let rightStrip ← U128.sub (← g.cumulativeNumerator sums newCountU (newR + 1) (newC + 1))
    (← g.cumulativeNumerator sums newCountU newR (newC + 1))
  let leftStrip ← U128.sub (← g.cumulativeNumerator sums newCountU (newR + 1) newC)
    (← g.cumulativeNumerator sums newCountU newR newC)
  let numerator ← U128.sub rightStrip leftStrip
  let floor := numerator / newCountU
  let floorTotal ← U128.add floors.floorTotal floor
  return {
    newNanos := floors.newNanos ++ [floor]
    fractionalRemainders := floors.fractionalRemainders ++ [numerator % newCountU]
    floorTotal }

def floorRow (sums : List ℕ) (newCountU : ℕ) (floors : Floors) (newR : ℕ) : Option Floors :=
  (List.range g.newCols).foldlM (g.floorCell sums newCountU newR) floors

end Regrid

/-! ## The largest remainders -/

def countFrequency (frequencies : List ℕ) (remainder : ℕ) : Option (List ℕ) := do
  let frequency ← frequencies[asUsize remainder]?
  setIndex frequencies (asUsize remainder) (frequency + 1)

/-- The search from the largest remainder down, with what is strictly larger and the cutoff. -/
def findCutoff (frequencies : List ℕ) (remainderCount : ℕ) : ℕ → ℕ → Option (ℕ × ℕ)
  | 0, strictlyLarger => some (strictlyLarger, 0)
  | remainder + 1, strictlyLarger => do
    let frequency ← frequencies[remainder]?
    if strictlyLarger + frequency ≥ remainderCount then return (strictlyLarger, remainder)
    else findCutoff frequencies remainderCount remainder (strictlyLarger + frequency)

def addUnit (chosen : Prop) [Decidable chosen] (nanos : ℕ) : Option ℕ :=
  if chosen then U128.add nanos 1 else some nanos

/-- The second pass, with the slots at the cutoff that are left. -/
def handOut (cutoff : ℕ) : List ℕ → List ℕ → ℕ → Option (List ℕ × ℕ)
  | newNanos, [], cutoffSlots => some (newNanos, cutoffSlots)
  | newNanos, remainder :: remainders, cutoffSlots =>
    let remainder := asUsize remainder
    let larger := remainder > cutoff
    let atCutoff := remainder = cutoff ∧ cutoffSlots ≠ 0
    match newNanos with
    | [] => if larger ∨ atCutoff then none else handOut cutoff [] remainders cutoffSlots
    | nanos :: newNanos => do
      let nanos ← addUnit (larger ∨ atCutoff) nanos
      let left := if larger then cutoffSlots else if atCutoff then cutoffSlots - 1 else cutoffSlots
      let rest ← handOut cutoff newNanos remainders left
      return (nanos :: rest.1, rest.2)

def hamiltonDistribute (newNanos fractionalRemainders : List ℕ)
    (oldTotalNanos floorTotal newCount : ℕ) : Option (List ℕ) := do
  let remainderCount := asUsize (← U128.sub oldTotalNanos floorTotal)
  -- "Hamilton remainder must be smaller than the destination cell count"
  assert (remainderCount < newCount)
  if remainderCount = 0 then return newNanos
  else
    let frequencies ← fractionalRemainders.foldlM countFrequency (List.replicate newCount 0)
    let (strictlyLarger, cutoff) ← findCutoff frequencies remainderCount newCount 0
    let cutoffSlots ← U128.sub remainderCount strictlyLarger
    let (newNanos, cutoffSlots) ← handOut cutoff newNanos fractionalRemainders cutoffSlots
    assert (cutoffSlots = 0)
    return newNanos

namespace Regrid
variable (g : Regrid)

def apportionNanos : Option (List ℕ) := do
  let newCountU ← g.newCountU
  let sums ← g.buildOldPrefix
  let oldTotalNanos ← g.prefixAt sums g.oldRows g.oldCols
  let floors ← (List.range g.newRows).foldlM (g.floorRow sums newCountU)
    { newNanos := [], fractionalRemainders := [], floorTotal := 0 }
  hamiltonDistribute floors.newNanos floors.fractionalRemainders oldTotalNanos floors.floorTotal
    g.newCount

end Regrid

end Dormant
