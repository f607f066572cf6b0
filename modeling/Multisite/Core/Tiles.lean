import Mathlib
import Multisite.Core.Documents
import Multisite.Lib.Copies

/-!
The tiles of a composited picture: `TileLayout::tile_rect` (`model.cpp`), and one tile as a view
or as a copy (`tile_crop.h`).

* `edge_step`, `exists_edge`: the edges of the grid, and the one interval between two of them that
  a pixel lies in;
* `tileRect_of_cell`: the rectangle of a tile, by its column and row;
* `tileCopies_ok`: the rows that `tile_copy` copies lie in the planes, and go to different places;
* `tiles_whole`: the tiles partition the picture, and a view and a copy of one show the same.
-/

namespace Multisite

/-! ### The rectangles -/

/-- `even_down`: `v & ~1`. -/
def evenDown (v : ℤ) : ℤ := if 0 < v then 2 * (v / 2) else 0

/-- `TileLayout::Rect`. -/
structure TileRect where
  x : ℤ := 0
  y : ℤ := 0
  w : ℤ := 0
  h : ℤ := 0
  deriving DecidableEq, Repr

/-- The pixels of a rectangle. -/
def TileRect.pixels (r : TileRect) : Set (ℤ × ℤ) :=
  {p | (r.x ≤ p.1 ∧ p.1 < r.x + r.w) ∧ r.y ≤ p.2 ∧ p.2 < r.y + r.h}

lemma TileRect.mem_pixels {r : TileRect} {p : ℤ × ℤ} :
    p ∈ r.pixels ↔ (r.x ≤ p.1 ∧ p.1 < r.x + r.w) ∧ r.y ≤ p.2 ∧ p.2 < r.y + r.h := Iff.rfl

namespace TileLayout

/-- `count`. -/
def count (t : TileLayout) : ℤ := t.cols * t.rows

/-- `tile_rect`. -/
def tileRect (t : TileLayout) (index frameW frameH : ℤ) : TileRect :=
  let whole : TileRect := ⟨0, 0, evenDown frameW, evenDown frameH⟩
  if index < 0 ∨ t.count ≤ index ∨ frameW ≤ 0 ∨ frameH ≤ 0 then whole
  else if !t.isSplit then whole
  else
    let col := index.tmod t.cols
    let row := index.tdiv t.cols
    let x0 := evenDown ((frameW * col).tdiv t.cols)
    let x1 := evenDown ((frameW * (col + 1)).tdiv t.cols)
    let y0 := evenDown ((frameH * row).tdiv t.rows)
    let y1 := evenDown ((frameH * (row + 1)).tdiv t.rows)
    let r : TileRect := ⟨x0, y0, x1 - x0, y1 - y0⟩
    if r.w ≤ 0 ∨ r.h ≤ 0 then whole else r

end TileLayout

/-- The edge before cell `k` of `n` cells of a length. -/
def edge (len n k : ℤ) : ℤ := evenDown ((len * k).tdiv n)

lemma evenDown_even (v : ℤ) : Even (evenDown v) := by
  unfold evenDown
  split
  · exact even_two_mul _
  · exact Even.zero

lemma evenDown_nonneg (v : ℤ) : 0 ≤ evenDown v := by
  unfold evenDown
  split <;> omega

lemma evenDown_le {v : ℤ} (hv : 0 ≤ v) : evenDown v ≤ v := by
  unfold evenDown
  split <;> omega

lemma evenDown_mono {a b : ℤ} (h : a ≤ b) : evenDown a ≤ evenDown b := by
  unfold evenDown
  split <;> split <;> omega

/-- Two whole steps further on is two further on. -/
lemma evenDown_step {a b : ℤ} (ha : 0 ≤ a) (h : a + 2 ≤ b) : evenDown a + 2 ≤ evenDown b := by
  unfold evenDown
  split <;> split <;> omega

section Edges

variable {len n k : ℤ}

lemma edge_zero (n : ℤ) : edge len n 0 = 0 := by
  rw [edge, Int.mul_zero, Int.zero_tdiv]
  rfl

lemma edge_last (len : ℤ) (hn : 0 < n) : edge len n n = evenDown len := by
  rw [edge, Int.mul_tdiv_cancel _ hn.ne']

/-- Next to each other the edges are two apart at least. -/
lemma edge_step (hn : 0 < n) (hlen : 2 * n ≤ len) (hk : 0 ≤ k) :
    edge len n k + 2 ≤ edge len n (k + 1) := by
  have hpos : 0 ≤ len := by omega
  have hlo : 0 ≤ len * k := mul_nonneg hpos hk
  have hstep : len * k + 2 * n ≤ len * (k + 1) := by
    rw [mul_add, mul_one]
    omega
  refine evenDown_step (Int.tdiv_nonneg hlo hn.le) ?_
  rw [Int.tdiv_eq_ediv_of_nonneg hlo, Int.tdiv_eq_ediv_of_nonneg (by omega),
    ← Int.add_mul_ediv_right _ _ hn.ne']
  exact Int.ediv_le_ediv hn hstep

lemma edge_mono (hn : 0 < n) (hlen : 2 * n ≤ len) (hk : 0 ≤ k) {l : ℤ} (hl : k ≤ l) :
    edge len n k ≤ edge len n l := by
  induction l, hl using Int.leInduction with
  | base => exact le_rfl
  | succ l hkl ih =>
      have := edge_step hn hlen (k := l) (by omega)
      omega

/-- Every place before an edge lies between two neighbours. -/
lemma exists_edge {x : ℤ} (hx : 0 ≤ x) (hk : 0 ≤ k) (h : x < edge len n k) :
    ∃ c, 0 ≤ c ∧ c < k ∧ edge len n c ≤ x ∧ x < edge len n (c + 1) := by
  induction k, hk using Int.leInduction with
  | base =>
      rw [edge_zero] at h
      omega
  | succ k hk ih =>
      by_cases hlast : edge len n k ≤ x
      · exact ⟨k, hk, by omega, hlast, h⟩
      · obtain ⟨c, hc, hck, hlow, hhigh⟩ := ih (by omega)
        exact ⟨c, hc, by omega, hlow, hhigh⟩

/-- The edge a place lies after is the only one. -/
lemma edge_unique (hn : 0 < n) (hlen : 2 * n ≤ len) {x c d : ℤ} (hc : 0 ≤ c) (hd : 0 ≤ d)
    (hcx : edge len n c ≤ x) (hxc : x < edge len n (c + 1))
    (hdx : edge len n d ≤ x) (hxd : x < edge len n (d + 1)) : c = d := by
  rcases lt_trichotomy c d with hlt | heq | hgt
  · have := edge_mono hn hlen (k := c + 1) (by omega) (l := d) (by omega)
    omega
  · exact heq
  · have := edge_mono hn hlen (k := d + 1) (by omega) (l := c) (by omega)
    omega

end Edges

namespace TileLayout

variable (t : TileLayout) {index frameW frameH : ℤ}

/-- The rectangle of the cell in a column and a row. -/
def cellRect (col row frameW frameH : ℤ) : TileRect :=
  ⟨edge frameW t.cols col, edge frameH t.rows row,
    edge frameW t.cols (col + 1) - edge frameW t.cols col,
    edge frameH t.rows (row + 1) - edge frameH t.rows row⟩

/-- A tile is the cell of its column and row, also where there is but one. -/
lemma tileRect_of_cell (hc : 1 ≤ t.cols) (hr : 1 ≤ t.rows) (hw : 2 * t.cols ≤ frameW)
    (hh : 2 * t.rows ≤ frameH) (hi : 0 ≤ index) (hcount : index < t.count) :
    t.tileRect index frameW frameH
      = t.cellRect (index % t.cols) (index / t.cols) frameW frameH := by
  have hmod : 0 ≤ index % t.cols := Int.emod_nonneg _ (by omega)
  have hdiv : 0 ≤ index / t.cols := Int.ediv_nonneg hi (by omega)
  by_cases hsplit : t.isSplit = true
  · have hx := edge_step (n := t.cols) (by omega) hw hmod
    have hy := edge_step (n := t.rows) (by omega) hh hdiv
    have hthere : ¬ (index < 0 ∨ t.count ≤ index ∨ frameW ≤ 0 ∨ frameH ≤ 0) := by omega
    unfold tileRect
    simp only [if_neg hthere, hsplit, Bool.not_true, Bool.false_eq_true, if_false,
      Int.tmod_eq_emod_of_nonneg hi, Int.tdiv_eq_ediv_of_nonneg hi]
    refine if_neg ?_
    unfold edge at hx hy
    omega
  · have hone : t.count ≤ 1 := by simpa [isSplit, count] using hsplit
    have hcols : t.cols = 1 := by
      unfold count at hone
      nlinarith
    have hrows : t.rows = 1 := by
      unfold count at hone
      nlinarith
    have hzero : index = 0 := by omega
    subst hzero
    simp only [tileRect, hsplit, Bool.not_false, if_true, ite_self, cellRect, hcols, hrows,
      Int.zero_emod, Int.zero_ediv, edge_zero, zero_add, sub_zero]
    rw [edge_last _ (by decide), edge_last _ (by decide)]

/-- The tiles partition the picture, rounded down to even size. -/
structure Partitions (frameW frameH : ℤ) : Prop where
  even : ∀ i, 0 ≤ i → i < t.count → Even (t.tileRect i frameW frameH).x ∧
    Even (t.tileRect i frameW frameH).y ∧ Even (t.tileRect i frameW frameH).w ∧
    Even (t.tileRect i frameW frameH).h
  large : ∀ i, 0 ≤ i → i < t.count →
    2 ≤ (t.tileRect i frameW frameH).w ∧ 2 ≤ (t.tileRect i frameW frameH).h
  inside : ∀ i, 0 ≤ i → i < t.count → (t.tileRect i frameW frameH).pixels ⊆
    (TileRect.mk 0 0 frameW frameH).pixels
  disjoint : ∀ i j, 0 ≤ i → i < t.count → 0 ≤ j → j < t.count → i ≠ j →
    Disjoint (t.tileRect i frameW frameH).pixels (t.tileRect j frameW frameH).pixels
  union : (⋃ i ∈ Set.Ico 0 t.count, (t.tileRect i frameW frameH).pixels)
    = (TileRect.mk 0 0 (evenDown frameW) (evenDown frameH)).pixels

/-- The column and the row of a tile. -/
lemma cell_bounds (hc : 1 ≤ t.cols) (hi : 0 ≤ index) (hcount : index < t.count) :
    0 ≤ index % t.cols ∧ index % t.cols < t.cols ∧ 0 ≤ index / t.cols ∧
      index / t.cols < t.rows := by
  refine ⟨Int.emod_nonneg _ (by omega), Int.emod_lt_of_pos _ (by omega),
    Int.ediv_nonneg hi (by omega), Int.ediv_lt_of_lt_mul (by omega) ?_⟩
  rw [mul_comm]
  exact hcount

section Cells

variable (hc : 1 ≤ t.cols) (hr : 1 ≤ t.rows) (hw : 2 * t.cols ≤ frameW)
  (hh : 2 * t.rows ≤ frameH)
include hc hr hw hh

/-- A tile holds a pixel when its column and its row do. -/
lemma mem_tileRect (hi : 0 ≤ index) (hcount : index < t.count) (p : ℤ × ℤ) :
    p ∈ (t.tileRect index frameW frameH).pixels ↔
      (edge frameW t.cols (index % t.cols) ≤ p.1 ∧
        p.1 < edge frameW t.cols (index % t.cols + 1)) ∧
      edge frameH t.rows (index / t.cols) ≤ p.2 ∧
        p.2 < edge frameH t.rows (index / t.cols + 1) := by
  rw [t.tileRect_of_cell hc hr hw hh hi hcount]
  simp only [TileRect.mem_pixels, cellRect, add_sub_cancel]

/-- No tile reaches past the last edges. -/
lemma tileRect_le (hi : 0 ≤ index) (hcount : index < t.count) :
    edge frameW t.cols (index % t.cols + 1) ≤ evenDown frameW ∧
      edge frameH t.rows (index / t.cols + 1) ≤ evenDown frameH := by
  obtain ⟨hcol, hcol', hrow, hrow'⟩ := t.cell_bounds hc hi hcount
  rw [← edge_last frameW (n := t.cols) (by omega),
    ← edge_last frameH (n := t.rows) (by omega)]
  exact ⟨edge_mono (by omega) hw (by omega) (by omega),
    edge_mono (by omega) hh (by omega) (by omega)⟩

/-- The tiles partition the picture. -/
lemma partitions : t.Partitions frameW frameH where
  even i hi hcount := by
    rw [t.tileRect_of_cell hc hr hw hh hi hcount]
    exact ⟨evenDown_even _, evenDown_even _, (evenDown_even _).sub (evenDown_even _),
      (evenDown_even _).sub (evenDown_even _)⟩
  large i hi hcount := by
    obtain ⟨hcol, -, hrow, -⟩ := t.cell_bounds hc hi hcount
    have hx := edge_step (n := t.cols) (by omega) hw hcol
    have hy := edge_step (n := t.rows) (by omega) hh hrow
    rw [t.tileRect_of_cell hc hr hw hh hi hcount]
    simp only [cellRect]
    omega
  inside i hi hcount p hp := by
    obtain ⟨⟨hx, hx'⟩, hy, hy'⟩ := (t.mem_tileRect hc hr hw hh hi hcount p).mp hp
    obtain ⟨hright, hbottom⟩ := t.tileRect_le hc hr hw hh hi hcount
    have hx0 : 0 ≤ edge frameW t.cols (i % t.cols) := evenDown_nonneg _
    have hy0 : 0 ≤ edge frameH t.rows (i / t.cols) := evenDown_nonneg _
    have hx1 : evenDown frameW ≤ frameW := evenDown_le (by omega)
    have hy1 : evenDown frameH ≤ frameH := evenDown_le (by omega)
    simp only [TileRect.mem_pixels]
    omega
  disjoint i j hi hi' hj hj' hne := by
    rw [Set.disjoint_left]
    intro p hpi hpj
    obtain ⟨⟨hx, hx'⟩, hy, hy'⟩ := (t.mem_tileRect hc hr hw hh hi hi' p).mp hpi
    obtain ⟨⟨hu, hu'⟩, hv, hv'⟩ := (t.mem_tileRect hc hr hw hh hj hj' p).mp hpj
    obtain ⟨hcol, -, hrow, -⟩ := t.cell_bounds hc hi hi'
    obtain ⟨hcol', -, hrow', -⟩ := t.cell_bounds hc hj hj'
    have hsame := edge_unique (by omega) hw hcol hcol' hx hx' hu hu'
    have hsame' := edge_unique (by omega) hh hrow hrow' hy hy' hv hv'
    apply hne
    rw [← Int.emod_add_mul_ediv i t.cols, hsame, hsame', Int.emod_add_mul_ediv]
  union := by
    ext ⟨x, y⟩
    simp only [Set.mem_iUnion, exists_prop]
    constructor
    · rintro ⟨i, ⟨hi, hcount⟩, hp⟩
      obtain ⟨⟨hx, hx'⟩, hy, hy'⟩ := (t.mem_tileRect hc hr hw hh hi hcount _).mp hp
      obtain ⟨hright, hbottom⟩ := t.tileRect_le hc hr hw hh hi hcount
      have hx0 : 0 ≤ edge frameW t.cols (i % t.cols) := evenDown_nonneg _
      have hy0 : 0 ≤ edge frameH t.rows (i / t.cols) := evenDown_nonneg _
      simp only [TileRect.mem_pixels]
      omega
    · intro hp
      obtain ⟨⟨hx, hx'⟩, hy, hy'⟩ := TileRect.mem_pixels.mp hp
      simp only [zero_add] at hx hx' hy hy'
      rw [← edge_last frameW (n := t.cols) (by omega)] at hx'
      rw [← edge_last frameH (n := t.rows) (by omega)] at hy'
      obtain ⟨c, hcol, hcol', hlow, hhigh⟩ := exists_edge hx (by omega) hx'
      obtain ⟨r, hrow, hrow', hlow', hhigh'⟩ := exists_edge hy (by omega) hy'
      have hmod : (c + r * t.cols) % t.cols = c := by
        rw [Int.add_mul_emod_self_right, Int.emod_eq_of_lt hcol hcol']
      have hdiv : (c + r * t.cols) / t.cols = r := by
        rw [Int.add_mul_ediv_right _ _ (by omega), Int.ediv_eq_zero_of_lt hcol hcol', zero_add]
      have hi : 0 ≤ c + r * t.cols := add_nonneg hcol (mul_nonneg hrow (by omega))
      have hcount : c + r * t.cols < t.count := by
        have hrows : (r + 1) * t.cols ≤ t.rows * t.cols :=
          mul_le_mul_of_nonneg_right (by omega) (by omega)
        unfold count
        rw [mul_comm t.cols]
        rw [add_mul, one_mul] at hrows
        omega
      refine ⟨c + r * t.cols, ⟨hi, hcount⟩, (t.mem_tileRect hc hr hw hh hi hcount _).mpr ?_⟩
      rw [hmod, hdiv]
      exact ⟨⟨hlow, hhigh⟩, hlow', hhigh'⟩

end Cells

/-- Whatever is asked for, in a frame of whatever size: the rectangle lies in the frame, on even
edges. -/
structure InFrame (r : TileRect) (frameW frameH : ℤ) : Prop where
  even : Even r.x ∧ Even r.y ∧ Even r.w ∧ Even r.h
  nonneg : 0 ≤ r.x ∧ 0 ≤ r.y ∧ 0 ≤ r.w ∧ 0 ≤ r.h
  right : r.x + r.w ≤ frameW
  bottom : r.y + r.h ≤ frameH

lemma edge_le {len n k : ℤ} (hn : 0 < n) (hlen : 0 ≤ len) (hk : 0 ≤ k) (hkn : k ≤ n) :
    edge len n k ≤ len := by
  have hlo : 0 ≤ len * k := mul_nonneg hlen hk
  have hle : (len * k).tdiv n ≤ len := by
    rw [Int.tdiv_eq_ediv_of_nonneg hlo]
    exact Int.ediv_le_of_le_mul hn (mul_le_mul_of_nonneg_left hkn hlen)
  have hpos : 0 ≤ (len * k).tdiv n := Int.tdiv_nonneg hlo hn.le
  have := evenDown_le hpos
  unfold edge
  omega

lemma tileRect_inFrame (hc : 1 ≤ t.cols) (hr : 1 ≤ t.rows) (hw : 0 ≤ frameW) (hh : 0 ≤ frameH)
    (index : ℤ) : InFrame (t.tileRect index frameW frameH) frameW frameH := by
  have hwhole : InFrame ⟨0, 0, evenDown frameW, evenDown frameH⟩ frameW frameH := by
    have := evenDown_le hw
    have := evenDown_le hh
    refine ⟨⟨Even.zero, Even.zero, evenDown_even _, evenDown_even _⟩,
      ⟨le_rfl, le_rfl, evenDown_nonneg _, evenDown_nonneg _⟩, ?_, ?_⟩ <;> simpa
  unfold tileRect
  dsimp only
  by_cases hout : index < 0 ∨ t.count ≤ index ∨ frameW ≤ 0 ∨ frameH ≤ 0
  · rw [if_pos hout]
    exact hwhole
  · rw [if_neg hout]
    split
    · exact hwhole
    · split
      · exact hwhole
      · rename_i hpos
        have hi : 0 ≤ index := by omega
        obtain ⟨hcol, hcol', hrow, hrow'⟩ := t.cell_bounds hc hi (by omega)
        rw [Int.tmod_eq_emod_of_nonneg hi, Int.tdiv_eq_ediv_of_nonneg hi] at hpos ⊢
        have hright := edge_le (n := t.cols) (by omega) hw (k := index % t.cols + 1) (by omega)
          (by omega)
        have hbottom := edge_le (n := t.rows) (by omega) hh (k := index / t.cols + 1) (by omega)
          (by omega)
        unfold edge at hright hbottom
        refine ⟨⟨evenDown_even _, evenDown_even _, (evenDown_even _).sub (evenDown_even _),
          (evenDown_even _).sub (evenDown_even _)⟩,
          ⟨evenDown_nonneg _, evenDown_nonneg _, ?_, ?_⟩, ?_, ?_⟩ <;> dsimp only at hpos ⊢ <;> omega

end TileLayout

/-! ### A tile of a frame -/

/-- A pointer into a buffer. -/
structure PlanePtr where
  buf : Bytes := []
  off : ℕ := 0
  deriving DecidableEq, Repr

/-- `DecodedVideoFrame`: I420, three planes with their strides. -/
structure DecodedVideoFrame where
  width : ℤ := 0
  height : ℤ := 0
  seq : ℕ := 0
  data : Bytes := []
  plane : Fin 3 → PlanePtr := fun _ => {}
  stride : Fin 3 → ℕ := fun _ => 0
  ptsNs : ℤ := 0
  fullRange : Bool := false

namespace DecodedVideoFrame

variable (f : DecodedVideoFrame) (layout : TileLayout) (index : ℤ)

/-- `tile_view`. -/
def tileView : DecodedVideoFrame :=
  let r := layout.tileRect index f.width f.height
  { width := r.w
    height := r.h
    ptsNs := f.ptsNs
    fullRange := f.fullRange
    stride := f.stride
    plane := fun
      | 0 => ⟨(f.plane 0).buf, (f.plane 0).off + r.y.toNat * f.stride 0 + r.x.toNat⟩
      | 1 => ⟨(f.plane 1).buf, (f.plane 1).off + (r.y / 2).toNat * f.stride 1 + (r.x / 2).toNat⟩
      | 2 => ⟨(f.plane 2).buf, (f.plane 2).off + (r.y / 2).toNat * f.stride 2 + (r.x / 2).toNat⟩ }

/-- The `memcpy` of a row of a plane, from where the tile starts in it. -/
def copyRow (i : Fin 3) (dst top left count : ℕ) : Lib.Copy UInt8 :=
  { dst, src := (f.plane i).buf, off := (f.plane i).off + top * f.stride i + left, count }

/-- The rows `tile_copy` copies, in its order. -/
def tileCopies (r : TileRect) : List (Lib.Copy UInt8) :=
  let w := r.w.toNat
  let cw := (r.w / 2).toNat
  let ysz := w * r.h.toNat
  let csz := cw * (r.h / 2).toNat
  (List.range r.h.toNat).map (fun y => f.copyRow 0 (y * w) (r.y.toNat + y) r.x.toNat w) ++
    (List.range (r.h / 2).toNat).flatMap fun y =>
      [f.copyRow 1 (ysz + y * cw) ((r.y / 2).toNat + y) (r.x / 2).toNat cw,
        f.copyRow 2 (ysz + csz + y * cw) ((r.y / 2).toNat + y) (r.x / 2).toNat cw]

/-- The frame `tile_copy` returns, over the buffer it has filled. -/
def ofTile (r : TileRect) (data : Bytes) : DecodedVideoFrame :=
  let cw := (r.w / 2).toNat
  let ysz := r.w.toNat * r.h.toNat
  let csz := cw * (r.h / 2).toNat
  { width := r.w
    height := r.h
    ptsNs := f.ptsNs
    fullRange := f.fullRange
    data
    stride := fun
      | 0 => r.w.toNat
      | 1 => cw
      | 2 => cw
    plane := fun
      | 0 => ⟨data, 0⟩
      | 1 => ⟨data, ysz⟩
      | 2 => ⟨data, ysz + csz⟩ }

/-- `tile_copy`; there is none where it would read or write outside a buffer. -/
def tileCopy : Option DecodedVideoFrame :=
  let r := layout.tileRect index f.width f.height
  let ysz := r.w.toNat * r.h.toNat
  let csz := (r.w / 2).toNat * (r.h / 2).toNat
  (Lib.copyAll (List.replicate (ysz + 2 * csz) 0) (f.tileCopies r)).map (f.ofTile r)

/-- The samples of a row of a plane; chroma is half resolution, rounded up. -/
def planeWidth (i : Fin 3) : ℕ := if i = 0 then f.width.toNat else (f.width.toNat + 1) / 2

/-- The rows of a plane. -/
def planeHeight (i : Fin 3) : ℕ := if i = 0 then f.height.toNat else (f.height.toNat + 1) / 2

/-- The sample at a place of a plane, read through the pointer. -/
def sample (i : Fin 3) (x y : ℕ) : Option UInt8 :=
  (f.plane i).buf[(f.plane i).off + y * f.stride i + x]?

/-- The planes hold their rows, which do not overlap. -/
structure I420 : Prop where
  width : 0 ≤ f.width
  height : 0 ≤ f.height
  stride : ∀ i, f.planeWidth i ≤ f.stride i
  rows : ∀ i, ∀ y < f.planeHeight i,
    (f.plane i).off + y * f.stride i + f.planeWidth i ≤ (f.plane i).buf.length

end DecodedVideoFrame

/-- Where a coordinate of the picture falls in a plane. -/
def planeAt (i : Fin 3) (v : ℤ) : ℕ := if i = 0 then v.toNat else (v / 2).toNat

/-- A row before another one ends where that one starts, or earlier. -/
lemma row_add_le {w y z : ℕ} (h : y < z) : y * w + w ≤ z * w := by
  calc y * w + w = (y + 1) * w := by rw [Nat.add_mul, Nat.one_mul]
    _ ≤ z * w := Nat.mul_le_mul_right w h

/-- A row lies inside its plane. -/
lemma row_add_le_area {w h y : ℕ} (hy : y < h) : y * w + w ≤ w * h := by
  rw [Nat.mul_comm w]
  exact row_add_le hy

/-- Where the planes start in the buffer of a copy. -/
def planeStart (r : TileRect) : Fin 3 → ℕ
  | 0 => 0
  | 1 => r.w.toNat * r.h.toNat
  | 2 => r.w.toNat * r.h.toNat + (r.w / 2).toNat * (r.h / 2).toNat

/-- A plane of the copy ends inside the buffer. -/
lemma planeStart_add_le (r : TileRect) (i : Fin 3) :
    planeStart r i + planeAt i r.w * planeAt i r.h
      ≤ r.w.toNat * r.h.toNat + 2 * ((r.w / 2).toNat * (r.h / 2).toNat) := by
  fin_cases i <;> simp [planeStart, planeAt] <;> omega

namespace DecodedVideoFrame

variable (f : DecodedVideoFrame) (layout : TileLayout) (index : ℤ) (r : TileRect)

/-- The row of a tile in a plane. -/
def tileRow (i : Fin 3) (y : ℕ) : Lib.Copy UInt8 :=
  f.copyRow i (planeStart r i + y * planeAt i r.w) (planeAt i r.y + y) (planeAt i r.x)
    (planeAt i r.w)

/-- The copies are the rows of the tile, in each plane. -/
lemma mem_tileCopies (c : Lib.Copy UInt8) :
    c ∈ f.tileCopies r ↔ ∃ i, ∃ y < planeAt i r.h, c = f.tileRow r i y := by
  simp only [tileCopies, List.mem_append, List.mem_map, List.mem_range, List.mem_flatMap,
    List.mem_cons, List.not_mem_nil, or_false]
  constructor
  · rintro (⟨y, hy, rfl⟩ | ⟨y, hy, rfl | rfl⟩)
    · exact ⟨0, y, hy, by simp [tileRow, planeStart, planeAt]⟩
    · exact ⟨1, y, hy, rfl⟩
    · exact ⟨2, y, hy, rfl⟩
  · rintro ⟨i, y, hy, rfl⟩
    fin_cases i
    · exact .inl ⟨y, hy, by simp [tileRow, planeStart, planeAt]⟩
    · exact .inr ⟨y, hy, .inl rfl⟩
    · exact .inr ⟨y, hy, .inr rfl⟩

/-- No two of the copies are written to the same place. -/
lemma tileCopies_apart : (f.tileCopies r).Pairwise Lib.Copy.Apart := by
  unfold tileCopies
  dsimp only
  refine List.pairwise_append.mpr ⟨?_, ?_, ?_⟩
  · refine List.pairwise_map.mpr (List.pairwise_lt_range.imp fun hlt => .inl ?_)
    exact row_add_le hlt
  · refine List.pairwise_flatMap.mpr ⟨fun y hy => ?_, List.pairwise_lt_range.imp_of_mem ?_⟩
    · have := row_add_le_area (w := (r.w / 2).toNat) (List.mem_range.mp hy)
      refine List.pairwise_pair.mpr (.inl ?_)
      simp only [copyRow]
      omega
    · intro y z hy hz hlt c hc d hd
      have := row_add_le_area (w := (r.w / 2).toNat) (List.mem_range.mp hy)
      have := row_add_le_area (w := (r.w / 2).toNat) (List.mem_range.mp hz)
      have := row_add_le (w := (r.w / 2).toNat) hlt
      simp only [List.mem_cons, List.not_mem_nil, or_false] at hc hd
      unfold Lib.Copy.Apart
      obtain rfl | rfl := hc <;> obtain rfl | rfl := hd <;> simp only [copyRow] <;> omega
  · intro c hc d hd
    obtain ⟨y, hy, rfl⟩ := List.mem_map.mp hc
    obtain ⟨z, -, hd⟩ := List.mem_flatMap.mp hd
    have := row_add_le_area (w := r.w.toNat) (List.mem_range.mp hy)
    simp only [List.mem_cons, List.not_mem_nil, or_false] at hd
    refine .inl ?_
    obtain rfl | rfl := hd <;> simp only [copyRow] <;> omega

variable {f r}

/-- The rows and the samples of a tile lie in the planes of the frame. -/
lemma planeAt_inside (hr : TileLayout.InFrame r f.width f.height) (i : Fin 3) :
    planeAt i r.x + planeAt i r.w ≤ f.planeWidth i ∧
      planeAt i r.y + planeAt i r.h ≤ f.planeHeight i := by
  obtain ⟨⟨⟨a, ha⟩, ⟨b, hb⟩, ⟨c, hc⟩, ⟨d, hd⟩⟩, ⟨hx, hy, hw, hh⟩, hright, hbottom⟩ := hr
  unfold planeAt planeWidth planeHeight
  split <;> omega

/-- Every copy reads and writes inside a buffer. -/
lemma tileCopies_fit (hf : f.I420) (hr : TileLayout.InFrame r f.width f.height) :
    ∀ c ∈ f.tileCopies r,
      c.Fits (r.w.toNat * r.h.toNat + 2 * ((r.w / 2).toNat * (r.h / 2).toNat)) := by
  intro c hc
  obtain ⟨i, y, hy, rfl⟩ := (f.mem_tileCopies r c).mp hc
  obtain ⟨hwide, hhigh⟩ := planeAt_inside hr i
  constructor
  · have hrow := hf.rows i (planeAt i r.y + y) (by omega)
    simp only [tileRow, copyRow]
    omega
  · have hend := planeStart_add_le r i
    have hrow := row_add_le_area (w := planeAt i r.w) hy
    simp only [tileRow, copyRow]
    omega

/-- `tile_copy` and `tile_view` of a tile: the copy is made, the two are of one size and show the
same samples, which are the frame's own; and every row that the copy reads is a row of the tile
in a plane of the frame. -/
structure ShowsAlike (f : DecodedVideoFrame) (layout : TileLayout) (index : ℤ)
    (out : DecodedVideoFrame) : Prop where
  made : f.tileCopy layout index = some out
  width : out.width = (f.tileView layout index).width
  height : out.height = (f.tileView layout index).height
  same : ∀ i x y, x < (f.tileView layout index).planeWidth i →
    y < (f.tileView layout index).planeHeight i →
    out.sample i x y = (f.tileView layout index).sample i x y
  inside : ∀ i x y, x < (f.tileView layout index).planeWidth i →
    y < (f.tileView layout index).planeHeight i →
    let r := layout.tileRect index f.width f.height
    planeAt i r.x + x < f.planeWidth i ∧ planeAt i r.y + y < f.planeHeight i ∧
      (f.tileView layout index).sample i x y
        = f.sample i (planeAt i r.x + x) (planeAt i r.y + y) ∧
      (f.sample i (planeAt i r.x + x) (planeAt i r.y + y)).isSome
  reads : ∀ c ∈ f.tileCopies (layout.tileRect index f.width f.height), ∃ i y x,
    c.src = (f.plane i).buf ∧ c.off = (f.plane i).off + y * f.stride i + x ∧
      y < f.planeHeight i ∧ x + c.count ≤ f.planeWidth i

variable (f)

lemma tileView_planeWidth (hr : TileLayout.InFrame (layout.tileRect index f.width f.height)
    f.width f.height) (i : Fin 3) :
    (f.tileView layout index).planeWidth i
      = planeAt i (layout.tileRect index f.width f.height).w := by
  obtain ⟨⟨-, -, ⟨c, hc⟩, -⟩, -, -, -⟩ := hr
  simp only [planeWidth, tileView, planeAt]
  split <;> omega

lemma tileView_planeHeight (hr : TileLayout.InFrame (layout.tileRect index f.width f.height)
    f.width f.height) (i : Fin 3) :
    (f.tileView layout index).planeHeight i
      = planeAt i (layout.tileRect index f.width f.height).h := by
  obtain ⟨⟨-, -, -, ⟨d, hd⟩⟩, -, -, -⟩ := hr
  simp only [planeHeight, tileView, planeAt]
  split <;> omega

/-- A sample of the view is the frame's, further in. -/
lemma tileView_sample (i : Fin 3) (x y : ℕ) :
    (f.tileView layout index).sample i x y
      = f.sample i (planeAt i (layout.tileRect index f.width f.height).x + x)
          (planeAt i (layout.tileRect index f.width f.height).y + y) := by
  unfold sample
  fin_cases i <;> simp only [tileView, planeAt] <;> congr 1 <;> simp <;> ring

/-- A sample of the copy, in its buffer. -/
lemma ofTile_sample (data : Bytes) (i : Fin 3) (x y : ℕ) :
    (f.ofTile r data).sample i x y = data[planeStart r i + y * planeAt i r.w + x]? := by
  fin_cases i <;> simp only [sample, ofTile, planeStart, planeAt] <;> simp

/-- A tile copied shows what the view of it shows. -/
lemma showsAlike (hf : f.I420) (hrect : layout.tileRect index f.width f.height = r)
    (hr : TileLayout.InFrame r f.width f.height) :
    ∃ out, f.ShowsAlike layout index out := by
  have hfits := f.tileCopies_fit hf hr
  obtain ⟨data, hdata, -, hruns, -⟩ :=
    Lib.copyAll_of_apart
      (List.replicate (r.w.toNat * r.h.toNat + 2 * ((r.w / 2).toNat * (r.h / 2).toNat)) 0)
      (by simpa using hfits) (f.tileCopies_apart r)
  have hwide (i : Fin 3) : (f.tileView layout index).planeWidth i = planeAt i r.w := by
    rw [tileView_planeWidth f layout index (by rwa [hrect]), hrect]
  have hhigh (i : Fin 3) : (f.tileView layout index).planeHeight i = planeAt i r.h := by
    rw [tileView_planeHeight f layout index (by rwa [hrect]), hrect]
  refine ⟨f.ofTile r data, ?_, ?_, ?_, ?_, ?_, ?_⟩
  · simp only [tileCopy, hrect, hdata, Option.map_some]
  · simp only [ofTile, tileView, hrect]
  · simp only [ofTile, tileView, hrect]
  · intro i x y hx hy
    rw [hwide] at hx
    rw [hhigh] at hy
    have hrow := hruns _ ((f.mem_tileCopies r _).mpr ⟨i, y, hy, rfl⟩) x hx
    have hread : (f.tileRow r i y).src[(f.tileRow r i y).off + x]?
        = f.sample i (planeAt i r.x + x) (planeAt i r.y + y) := by
      unfold sample tileRow copyRow
      dsimp only
      congr 1
      ring
    rw [tileView_sample, hrect, ofTile_sample, ← hread, ← hrow]
    rfl
  · intro i x y hx hy
    rw [hwide] at hx
    rw [hhigh] at hy
    obtain ⟨hright, hbottom⟩ := planeAt_inside hr i
    have hrows := hf.rows i (planeAt i r.y + y) (by omega)
    rw [tileView_sample, hrect]
    refine ⟨by omega, by omega, rfl, ?_⟩
    unfold sample
    rw [Option.isSome_iff_exists]
    exact ⟨_, List.getElem?_eq_getElem (by omega)⟩
  · intro c hc
    rw [hrect] at hc
    obtain ⟨i, y, hy, rfl⟩ := (f.mem_tileCopies r c).mp hc
    obtain ⟨hright, hbottom⟩ := planeAt_inside hr i
    exact ⟨i, planeAt i r.y + y, planeAt i r.x, rfl, rfl, by omega, hright⟩

end DecodedVideoFrame

/-- The tiles of a layout partition every picture of at least two by two pixels a tile; and a tile
of any frame, copied, shows what the view of it shows, read inside the planes. -/
theorem tiles_whole (t : TileLayout) (hc : 1 ≤ t.cols) (hr : 1 ≤ t.rows) :
    (∀ frameW frameH, 2 * t.cols ≤ frameW → 2 * t.rows ≤ frameH →
        t.Partitions frameW frameH) ∧
      ∀ f : DecodedVideoFrame, f.I420 → ∀ index, ∃ out, f.ShowsAlike t index out := by
  refine ⟨fun frameW frameH hw hh => t.partitions hc hr hw hh, fun f hf index => ?_⟩
  exact f.showsAlike t index hf rfl (t.tileRect_inFrame hc hr hf.width hf.height index)

/-- A picture of four by two, its planes one after the other in a buffer. -/
def fourByTwo : DecodedVideoFrame where
  width := 4
  height := 2
  plane := fun
    | 0 => ⟨[1, 2, 3, 4, 5, 6, 7, 8, 20, 21, 30, 31], 0⟩
    | 1 => ⟨[1, 2, 3, 4, 5, 6, 7, 8, 20, 21, 30, 31], 8⟩
    | 2 => ⟨[1, 2, 3, 4, 5, 6, 7, 8, 20, 21, 30, 31], 10⟩
  stride := fun
    | 0 => 4
    | 1 => 2
    | 2 => 2

/-- A row of three tiles in a picture nine pixels wide, and the right half of a small one. -/
theorem tiles_whole_small :
    TileLayout.Partitions ⟨3, 1⟩ 9 3 ∧ ∃ out, fourByTwo.ShowsAlike ⟨2, 1⟩ 1 out :=
  ⟨(tiles_whole ⟨3, 1⟩ (by decide) (by decide)).1 9 3 (by decide) (by decide),
    (tiles_whole ⟨2, 1⟩ (by decide) (by decide)).2 fourByTwo
      ⟨by decide, by decide, by decide, by decide⟩ 1⟩

example : (fourByTwo.tileCopy ⟨2, 1⟩ 1).map (·.data) = some [3, 4, 7, 8, 21, 31] := by decide

end Multisite
