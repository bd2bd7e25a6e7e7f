/-! The four children of a cell. Bit 0 of an index picks the right half along x, bit 1 the bottom
half along y. -/

namespace WaveletRaster

inductive Quadrant where
  | topLeft
  | topRight
  | bottomLeft
  | bottomRight
  deriving DecidableEq

namespace Quadrant

def all : List Quadrant := [topLeft, topRight, bottomLeft, bottomRight]

def ofIndex? (index : UInt32) : Option Quadrant :=
  match index.toNat with
  | 0 => some topLeft
  | 1 => some topRight
  | 2 => some bottomLeft
  | 3 => some bottomRight
  | _ => none

def index : Quadrant → UInt32
  | topLeft => 0
  | topRight => 1
  | bottomLeft => 2
  | bottomRight => 3

def isRight : Quadrant → Bool
  | topRight | bottomRight => true
  | topLeft | bottomLeft => false

def isBottom : Quadrant → Bool
  | bottomLeft | bottomRight => true
  | topLeft | topRight => false

def offset (q : Quadrant) (half : UInt32) : UInt32 × UInt32 :=
  (if q.isRight then half else 0, if q.isBottom then half else 0)

def name : Quadrant → String
  | topLeft => "TopLeft"
  | topRight => "TopRight"
  | bottomLeft => "BottomLeft"
  | bottomRight => "BottomRight"

theorem ofIndex?_index (q : Quadrant) : ofIndex? q.index = some q := by
  cases q <;> rfl

theorem ofIndex?_eq_none_iff (i : UInt32) : ofIndex? i = none ↔ 3 < i := by
  rw [UInt32.lt_iff_toNat_lt, ofIndex?]
  split <;> simp_all
  omega

theorem index_of_ofIndex? {i : UInt32} {q : Quadrant} (h : ofIndex? i = some q) : q.index = i := by
  unfold ofIndex? at h
  split at h <;> simp at h <;> subst h <;> exact UInt32.toNat.inj (by simp_all [index])

theorem index_le (q : Quadrant) : q.index ≤ 3 := by
  cases q <;> decide

theorem exists_index_eq {i : UInt32} (h : i ≤ 3) : ∃ q : Quadrant, q.index = i := by
  cases hq : ofIndex? i with
  | none => exact absurd h (UInt32.not_le.mpr ((ofIndex?_eq_none_iff i).mp hq))
  | some q => exact ⟨q, index_of_ofIndex? hq⟩

end Quadrant
end WaveletRaster
