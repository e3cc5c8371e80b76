import Mathlib.Algebra.Order.Ring.Rat
import Mathlib.Data.List.Rotate
import Mathlib.Data.List.Sort

/-!
# Pixel shift

`shift.rs`: the walk of the source rectangle, and the walk that dwells toward cold cells. Offsets
are unbounded integers. What the floating-point operations give is left open.
-/

namespace Dormant.PixelShift
set_option autoImplicit false

def margin (stepPx : UInt8) : ℕ := 2 * stepPx.toNat

/-- The loop over `k`. A value is past the radius at `radius + 1` at the latest. -/
def axis (step radius : ℕ) : List ℤ :=
  let vals := ((List.range (radius + 2)).map (· * step)).takeWhile (· ≤ radius)
  (vals.flatMap fun val : ℕ =>
    if val = 0 then [0] else [-(val : ℤ), (val : ℤ)]).insertionSort (· ≤ ·)

/-- Row by row, every other row backwards. -/
def rasterRows (axis : List ℤ) : List (ℤ × ℤ) :=
  axis.zipIdx.flatMap fun entry =>
    if entry.2 % 2 = 0 then axis.map (·, entry.1) else axis.reverse.map (·, entry.1)

def rotated (offsets : List (ℤ × ℤ)) : List (ℤ × ℤ) :=
  match offsets.findIdx? (· == (0, 0)) with
  | some originIdx => offsets.rotate originIdx
  | none => offsets

def rasterOffsets (step radius : ℕ) : List (ℤ × ℤ) :=
  if step = 0 then [] else rotated (rasterRows (axis step radius)) ++ [(0, 0)]

structure ShiftState where
  marginPx : ℕ
  offsets : List (ℤ × ℤ)
  cursor : ℕ

/-- `u8::try_from(value).unwrap_or(u8::MAX)`. -/
def toU8 (value : ℕ) : ℕ := if value ≤ 255 then value else 255

/-- `u32::try_from(value).unwrap_or(u32::MAX)`. -/
def toU32 (value : ℤ) : ℕ :=
  if 0 ≤ value ∧ value ≤ 4294967295 then value.toNat else 4294967295

/-! ## The biased walk -/

/-- The operations on `f64`. -/
structure Floats (F : Type) where
  lit : ℚ → F
  add : F → F → F
  sub : F → F → F
  mul : F → F → F
  div : F → F → F
  neg : F → F
  hypot : F → F → F
  clamp : F → F → F → F
  le : F → F → Bool
  isFinite : F → Bool
  epsilon : F

structure HeatGrid (F : Type) where
  rows : UInt16
  cols : UInt16
  cells : List F

section
variable {F : Type} (f64 : Floats F)

def usable (heat : HeatGrid F) : Bool :=
  decide (heat.rows.toNat * heat.cols.toNat = heat.cells.length) && heat.rows != 0 &&
    heat.cols != 0 &&
    !heat.cells.any fun value =>
      !f64.isFinite value || !(f64.le (f64.lit 0) value && f64.le value (f64.lit 1))

structure Cold (F : Type) where
  total : F
  x : F
  y : F

/-- The loop over the cells. -/
def coldSums (heat : HeatGrid F) : Cold F :=
  heat.cells.zipIdx.foldl
    (fun cold cell =>
      let coldness := f64.sub (f64.lit 1) cell.1
      let row := cell.2 / heat.cols.toNat
      let col := cell.2 % heat.cols.toNat
      ⟨f64.add cold.total coldness,
        f64.add cold.x (f64.mul coldness (f64.add (f64.lit col) (f64.lit (1 / 2)))),
        f64.add cold.y (f64.mul coldness (f64.add (f64.lit row) (f64.lit (1 / 2))))⟩)
    ⟨f64.lit 0, f64.lit 0, f64.lit 0⟩

/-- How often an offset is repeated. -/
def repeats (score : F) : ℕ :=
  if f64.le (f64.lit (7 / 2)) score then 5
  else if f64.le (f64.lit (5 / 2)) score then 4
  else if f64.le (f64.lit (3 / 2)) score then 3
  else if f64.le (f64.lit (1 / 2)) score then 2
  else 1

def biasScore (bias maxRadius directionX directionY directionLength : F) (p : ℤ × ℤ) : F :=
  let alignment := f64.div
    (f64.neg (f64.add (f64.mul (f64.lit p.1) directionX) (f64.mul (f64.lit p.2) directionY)))
    (f64.mul maxRadius directionLength)
  f64.clamp (f64.mul (f64.mul bias (f64.lit 4)) alignment) (f64.lit 0) (f64.lit 4)

namespace ShiftState

def new (stepPx : UInt8) : ShiftState :=
  let marginPx := margin stepPx
  ⟨marginPx, rasterOffsets stepPx.toNat (toU8 marginPx), 0⟩

def newBiased (stepPx : UInt8) (heat : Option (HeatGrid F)) (bias : F) : ShiftState :=
  let base := new stepPx
  if base.offsets.isEmpty || !f64.isFinite bias || f64.le bias (f64.lit 0) then base
  else
    match heat with
    | none => base
    | some heat =>
      if !usable f64 heat then base
      else
        let cold := coldSums f64 heat
        if f64.le cold.total f64.epsilon then base
        else
          let centreX := f64.div (f64.lit heat.cols.toNat) (f64.lit 2)
          let centreY := f64.div (f64.lit heat.rows.toNat) (f64.lit 2)
          let directionX := f64.sub (f64.div cold.x cold.total) centreX
          let directionY := f64.sub (f64.div cold.y cold.total) centreY
          let directionLength := f64.hypot directionX directionY
          if f64.le directionLength f64.epsilon then base
          else
            let score := biasScore f64 bias (f64.lit base.marginPx) directionX directionY
              directionLength
            let inner := (base.offsets.drop 1).take (base.offsets.length - 2)
            { base with
              offsets := [(0, 0)] ++
                inner.flatMap (fun p => List.replicate (repeats f64 (score p)) p) ++ [(0, 0)] }

end ShiftState

end

/-! ## The cursor -/

namespace ShiftState
variable (s : ShiftState)

/-- The offset of the walk's current position. -/
def offset : ℤ × ℤ := s.offsets[s.cursor]?.getD (0, 0)

def offsetToOrigin (offsetX offsetY : ℤ) (marginPx : ℕ) : ℕ × ℕ :=
  let budget : ℤ := marginPx
  let clamped (value : ℤ) : ℤ := max 0 (min value (budget * 2))
  (toU32 (clamped (budget + offsetX)), toU32 (clamped (budget + offsetY)))

def sourceOrigin : ℕ × ℕ := offsetToOrigin s.offset.1 s.offset.2 s.marginPx

def advance : (ℕ × ℕ) × ShiftState :=
  if s.offsets.isEmpty then ((s.marginPx, s.marginPx), s)
  else
    let next := { s with cursor := (s.cursor + 1) % s.offsets.length }
    (next.sourceOrigin, next)

end ShiftState

end Dormant.PixelShift
