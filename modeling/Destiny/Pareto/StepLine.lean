/-
  Destiny.Pareto.StepLine

  `pareto_step_line` (destiny_utils.py): the staircase drawn through the points
  `pareto_frontier_2d` keeps.

  Sorted by `x`, points of which none dominates another have `y` going down, so
  each pair of neighbours can be joined by a horizontal and a vertical piece
  whose corner lies above and to the right of the lower point.
  `step_line_staircase` states this for the composition of both functions, for
  any order `np.argsort` gives to equal `x`.
-/

import Destiny.Pareto.Frontier

namespace Destiny.Pareto

open Lib

variable {K : Type} [LinearOrder K] {n : ℕ} {ι : Type} {x y : ι → K}

/-! ## The path -/

/-- A round of the loop: a horizontal step, then a vertical step. -/
def stepLineStep (x y : ι → K) (path : List K × List K) (i : ι) : List K × List K :=
  let (sx, sy) := path
  let sy := sy ++ sy.getLast?.toList
  let sx := sx ++ [x i]
  let sx := sx ++ [x i]
  let sy := sy ++ [y i]
  (sx, sy)

/-- `order` is what `np.argsort(x)` returns; `xs[0]` of an empty array raises. -/
def pareto_step_line (order : List ι) (x y : ι → K) : Option (List K × List K) :=
  match order with
  | [] => none
  | i :: rest => some (rest.foldl (stepLineStep x y) ([x i], [y i]))

/-- The points a mask keeps. -/
def kept (mask : Fin n → Bool) : List (Fin n) := (List.finRange n).filter (mask ·)

/-- `np.argsort` of the kept points: ascending in `x`, equal values in any order. -/
def Argsort (x : ι → K) (points order : List ι) : Prop :=
  order.Perm points ∧ order.Pairwise fun i j => x i ≤ x j

/-! ## What the path is -/

/-- The vertices after a point: the corner and the next point, and so on. -/
def vertices (x y : ι → K) (i : ι) : List ι → List (K × K)
  | [] => []
  | j :: rest => (x j, y i) :: (x j, y j) :: vertices x y j rest

omit [LinearOrder K] in
theorem foldl_stepLineStep (rest : List ι) (i : ι) (sx sy : List K)
    (hlast : sy.getLast? = some (y i)) (hlength : sx.length = sy.length) :
    let (px, py) := rest.foldl (stepLineStep x y) (sx, sy)
    px.length = py.length ∧ px.zip py = sx.zip sy ++ vertices x y i rest := by
  induction rest generalizing i sx sy with
  | nil => simp [vertices, hlength]
  | cons j rest ih =>
      have h := ih j (sx ++ [x j] ++ [x j]) (sy ++ [y i] ++ [y j]) (by simp) (by simp [hlength])
      simp only [List.foldl_cons, stepLineStep, hlast, Option.toList_some]
      refine ⟨h.1, h.2.trans ?_⟩
      rw [List.append_assoc, List.append_assoc, List.zip_append hlength, List.append_assoc]
      rfl

omit [LinearOrder K] in
/-- The vertices of the path through a non-empty list of points. -/
theorem pareto_step_line_cons (i : ι) (rest : List ι) :
    ∃ px py, pareto_step_line (i :: rest) x y = some (px, py) ∧ px.length = py.length ∧
      px.zip py = (x i, y i) :: vertices x y i rest :=
  ⟨_, _, rfl, foldl_stepLineStep rest i [x i] [y i] rfl rfl⟩

/-! ## The staircase -/

/-- What a drawn frontier of the kept points should be. -/
structure Staircase (x y : ι → K) (points : List ι) (path : List (K × K)) : Prop where
  /-- consecutive vertices differ in at most one coordinate -/
  axis_aligned : path.IsChain fun v w => v.1 = w.1 ∨ v.2 = w.2
  nondecreasing_x : path.IsChain fun v w => v.1 ≤ w.1
  nonincreasing_y : path.IsChain fun v w => w.2 ≤ v.2
  every_point : ∀ i ∈ points, (x i, y i) ∈ path
  /-- every vertex lies above and to the right of some point -/
  attainable : ∀ v ∈ path, ∃ i ∈ points, x i ≤ v.1 ∧ y i ≤ v.2

/-- Of two points of which neither dominates the other, the right one is lower. -/
theorem le_of_nondominated {x y : Fin n → K} {i j : Fin n} (hx : x i ≤ x j)
    (hj : Nondominated (fun k => (x k, y k)) j) : y j ≤ y i := by
  by_contra hlt
  exact hj i (Prod.mk_lt_mk.mpr (.inr ⟨hx, not_le.mp hlt⟩))

/-- A path through points that go right and down is a staircase. -/
theorem staircase_vertices (i : ι) (rest : List ι)
    (hx : (i :: rest).Pairwise fun j k => x j ≤ x k)
    (hy : (i :: rest).Pairwise fun j k => y k ≤ y j) :
    Staircase x y (i :: rest) ((x i, y i) :: vertices x y i rest) := by
  induction rest generalizing i with
  | nil =>
      exact
        { axis_aligned := .singleton _
          nondecreasing_x := .singleton _
          nonincreasing_y := .singleton _
          every_point := fun j hj => by
            obtain rfl := List.mem_singleton.mp hj
            exact List.mem_singleton_self _
          attainable := fun v hv => by
            obtain rfl := List.mem_singleton.mp hv
            exact ⟨i, List.mem_singleton_self i, le_rfl, le_rfl⟩ }
  | cons j rest ih =>
      obtain ⟨hxi, hxrest⟩ := List.pairwise_cons.mp hx
      obtain ⟨hyi, hyrest⟩ := List.pairwise_cons.mp hy
      have hxj : x i ≤ x j := hxi j (List.mem_cons_self ..)
      have hyj : y j ≤ y i := hyi j (List.mem_cons_self ..)
      have h := ih j hxrest hyrest
      show Staircase x y _ ((x i, y i) :: (x j, y i) :: (x j, y j) :: vertices x y j rest)
      exact
        { axis_aligned := .cons_cons (.inr rfl) (.cons_cons (.inl rfl) h.axis_aligned)
          nondecreasing_x := .cons_cons hxj (.cons_cons le_rfl h.nondecreasing_x)
          nonincreasing_y := .cons_cons le_rfl (.cons_cons hyj h.nonincreasing_y)
          every_point := fun k hk => by
            rcases List.mem_cons.mp hk with rfl | hk
            · exact List.mem_cons_self ..
            · exact List.mem_cons_of_mem _ (List.mem_cons_of_mem _ (h.every_point k hk))
          attainable := fun v hv => by
            rcases List.mem_cons.mp hv with rfl | hv
            · exact ⟨i, List.mem_cons_self .., le_rfl, le_rfl⟩
            rcases List.mem_cons.mp hv with rfl | hv
            · -- the corner lies above the point it leads to
              exact ⟨j, List.mem_cons_of_mem _ (List.mem_cons_self ..), le_rfl, hyj⟩
            obtain ⟨k, hk, hle⟩ := h.attainable v hv
            exact ⟨k, List.mem_cons_of_mem _ hk, hle⟩ }

/-- A staircase through a list of points is one through any of its orders. -/
theorem Staircase.perm {points points' : List ι} {path : List (K × K)}
    (h : Staircase x y points path) (hperm : points.Perm points') :
    Staircase x y points' path :=
  { h with
    every_point := fun i hi => h.every_point i (hperm.mem_iff.mpr hi)
    attainable := fun v hv =>
      let ⟨i, hi, hle⟩ := h.attainable v hv
      ⟨i, hperm.mem_iff.mp hi, hle⟩ }

/-- A non-empty data set has a point that is kept. -/
theorem kept_ne_nil (x y : Fin (n + 1) → K) : kept (pareto_frontier_2d x y) ≠ [] := by
  obtain ⟨i, hi, -⟩ := exists_nondominated_le (fun k => (x k, y k)) 0
  have hmem : i ∈ kept (pareto_frontier_2d x y) :=
    List.mem_filter.mpr ⟨List.mem_finRange i, (pareto_frontier_2d_iff x y i).mpr hi⟩
  exact List.ne_nil_of_mem hmem

/-- The path drawn through the frontier of a non-empty data set is a staircase,
    in whichever order equal `x` are sorted. -/
theorem step_line_staircase {K : Type} [LinearOrder K] {n : ℕ} (x y : Fin (n + 1) → K)
    (order : List (Fin (n + 1))) (horder : Argsort x (kept (pareto_frontier_2d x y)) order) :
    ∃ sx sy, pareto_step_line order x y = some (sx, sy) ∧ sx.length = sy.length ∧
      Staircase x y (kept (pareto_frontier_2d x y)) (sx.zip sy) := by
  obtain ⟨hperm, hsorted⟩ := horder
  have hmem : ∀ i ∈ order, Nondominated (fun k => (x k, y k)) i := fun i hi =>
    (pareto_frontier_2d_iff x y i).mp (List.mem_filter.mp (hperm.mem_iff.mp hi)).2
  have hdown : order.Pairwise fun i j => y j ≤ y i :=
    hsorted.imp_of_mem fun _ hj hx => le_of_nondominated hx (hmem _ hj)
  cases order with
  | nil => exact absurd hperm.symm.eq_nil (kept_ne_nil x y)
  | cons i rest =>
      obtain ⟨sx, sy, hpath, hlength, hzip⟩ := pareto_step_line_cons (x := x) (y := y) i rest
      exact ⟨sx, sy, hpath, hlength, hzip ▸ (staircase_vertices i rest hsorted hdown).perm hperm⟩

/-- Four points of which two coincide and one is dominated. -/
theorem step_line_staircase_four :
    ∃ sx sy, pareto_step_line [3, 0, 1] ![(2 : ℤ), 2, 3, 1] ![(1 : ℤ), 1, 3, 2] = some (sx, sy) ∧
      sx.length = sy.length ∧
      Staircase ![(2 : ℤ), 2, 3, 1] ![(1 : ℤ), 1, 3, 2]
        (kept (pareto_frontier_2d ![(2 : ℤ), 2, 3, 1] ![(1 : ℤ), 1, 3, 2])) (sx.zip sy) :=
  step_line_staircase ![(2 : ℤ), 2, 3, 1] ![(1 : ℤ), 1, 3, 2] [3, 0, 1]
    ⟨by decide, by decide⟩

end Destiny.Pareto
