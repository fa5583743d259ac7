/-
  Destiny.Inverse.Weights

  Weights of the targets, in training (tune_model.py, train_model.py) and in the
  Gumbel optimisers (inverse_design_gumbel_target.py and its sibling for
  objectives).

  A technology skips the targets that are zero by construction, and a model has
  one output for each of the others.  `load_params_from_study` and the optimisers
  list weights over all the targets; the outputs take them from the front.  Every
  output gets its own target's weight, whatever the weights are, exactly when the
  skipped targets come last (`target_weights_aligned_iff`).
-/

import Destiny.Lib.Kept
import Mathlib.Algebra.Field.Rat
import Mathlib.Data.List.Nodup

namespace Destiny.Inverse

open Lib

/-! ## Targets -/

/-- The columns a model predicts. -/
inductive TargetCol
  | cache_area_mm2
  | cache_hit_latency_ns
  | cache_write_latency_ns
  | cache_refresh_latency_ns
  | cache_hit_energy_nJ
  | cache_write_energy_nJ
  | cache_refresh_energy_nJ
  | cache_leakage_mW
  deriving DecidableEq, Repr

open TargetCol

def TARGET_COLS : List TargetCol :=
  [cache_area_mm2, cache_hit_latency_ns, cache_write_latency_ns, cache_refresh_latency_ns,
   cache_hit_energy_nJ, cache_write_energy_nJ, cache_refresh_energy_nJ, cache_leakage_mW]

def TARGET_LABELS : List (List Char) :=
  ["Area (mm^2)".toList, "Read Latency (ns)".toList, "Write Latency (ns)".toList,
   "Refresh Latency (ns)".toList, "Read Energy (nJ)".toList, "Write Energy (nJ)".toList,
   "Refresh Energy (nJ)".toList, "Leakage (mW)".toList]

/-- The label of a target, the entry of `TARGET_LABELS` at its place. -/
def TargetCol.label : TargetCol → List Char
  | cache_area_mm2 => "Area (mm^2)".toList
  | cache_hit_latency_ns => "Read Latency (ns)".toList
  | cache_write_latency_ns => "Write Latency (ns)".toList
  | cache_refresh_latency_ns => "Refresh Latency (ns)".toList
  | cache_hit_energy_nJ => "Read Energy (nJ)".toList
  | cache_write_energy_nJ => "Write Energy (nJ)".toList
  | cache_refresh_energy_nJ => "Refresh Energy (nJ)".toList
  | cache_leakage_mW => "Leakage (mW)".toList

theorem TARGET_LABELS_eq : TARGET_LABELS = TARGET_COLS.map TargetCol.label := rfl

theorem mem_TARGET_COLS (col : TargetCol) : col ∈ TARGET_COLS := by cases col <;> decide

/-- `get_active_targets`, for the targets a technology skips. -/
def get_active_targets (skip : List TargetCol) : List TargetCol :=
  TARGET_COLS.filter fun col => col ∉ skip

/-- `get_active_labels` -/
def get_active_labels (skip : List TargetCol) : List (List Char) :=
  ((TARGET_COLS.zip TARGET_LABELS).filter fun (col, _) => col ∉ skip).map fun (_, lbl) => lbl

theorem get_active_labels_eq (skip : List TargetCol) :
    get_active_labels skip = (get_active_targets skip).map TargetCol.label := by
  have hzip : TARGET_COLS.zip TARGET_LABELS = TARGET_COLS.map fun col => (col, col.label) := rfl
  rw [get_active_labels, hzip, List.filter_map, List.map_map]
  rfl

/-! ## Weights of a study -/

/-- The name of a label's weight in a study. -/
def alpha_key (label : List Char) : List Char :=
  "alpha_".toList ++ ((label.map Char.toLower).filter fun c => c ∉ ['(', ')', '^']).map
    fun c => if c = ' ' ∨ c = '/' then '_' else c

theorem alpha_key_label_injective {c d : TargetCol} (h : alpha_key c.label = alpha_key d.label) :
    c = d := by
  have hnodup : (TARGET_COLS.map fun col => alpha_key col.label).Nodup := by decide +kernel
  exact List.inj_on_of_nodup_map hnodup (mem_TARGET_COLS c) (mem_TARGET_COLS d) h

section
variable {K : Type} [Field K]

/-- The other parameters `objective` of tune_model.py suggests. -/
structure HyperParams (K : Type) where
  hidden_dim : K
  n_blocks : K
  lr : K
  weight_decay : K
  dropout : K

/-- The parameters of a trial of tune_model.py: one weight for each label of the
    technology. -/
def best_params (hyper : HyperParams K) (skip : List TargetCol) (weight : List Char → K) :
    List (List Char × K) :=
  [("hidden_dim".toList, hyper.hidden_dim), ("n_blocks".toList, hyper.n_blocks),
   ("lr".toList, hyper.lr), ("weight_decay".toList, hyper.weight_decay),
   ("dropout".toList, hyper.dropout)] ++
    (get_active_labels skip).map fun label => (alpha_key label, weight label)

/-- `load_params_from_study`: the weights, `args.alpha`. -/
def load_params_from_study (best : List (List Char × K)) : List K :=
  let get (k : List Char) : K := (best.lookup k).getD 1
  let best_alphas := TARGET_LABELS.map fun label => get (alpha_key label)
  -- studies of an earlier version
  if (best.lookup "alpha_lat".toList).isSome then
    ["alpha_lat".toList, "alpha_energy".toList, "alpha_area".toList, "alpha_leak".toList].map get ++
      List.replicate (TARGET_LABELS.length - 4) 1
  else best_alphas

/-- `loss_weights` of `train`. -/
def loss_weights (alpha : List K) (skip : List TargetCol) : List K :=
  alpha.take (get_active_targets skip).length

/-- The weight a study has for a target; `1.0` when it has none. -/
def studyWeight (skip : List TargetCol) (weight : List Char → K) (col : TargetCol) : K :=
  if col ∈ skip then 1 else weight col.label

variable {hyper : HyperParams K} {skip : List TargetCol} {weight : List Char → K}

omit [Field K] in
/-- The names of the other parameters of a study start with other letters. -/
theorem lookup_best_params {k : List Char} (hk : k.head? = some 'a') :
    (best_params hyper skip weight).lookup k =
      ((get_active_targets skip).map fun col =>
        (alpha_key col.label, weight col.label)).lookup k := by
  cases k with
  | nil => cases hk
  | cons c k =>
      obtain rfl : c = 'a' := Option.some.inj hk
      rw [best_params, get_active_labels_eq, List.map_map, List.lookup_append]
      rfl

theorem head?_alpha_key (label : List Char) : (alpha_key label).head? = some 'a' := by
  unfold alpha_key
  rw [String.toList_ofList]
  rfl

omit [Field K] in
theorem lookup_alpha_key (weight : List Char → K) (cols : List TargetCol) (col : TargetCol) :
    (cols.map fun c => (alpha_key c.label, weight c.label)).lookup (alpha_key col.label) =
      if col ∈ cols then some (weight col.label) else none := by
  induction cols with
  | nil => rfl
  | cons c cols ih =>
      rw [List.map_cons, List.lookup_cons, ih]
      by_cases hc : col = c
      · subst hc
        simp
      · have hkey : (alpha_key col.label == alpha_key c.label) = false :=
          beq_eq_false_iff_ne.mpr fun h => hc (alpha_key_label_injective h)
        rw [hkey]
        simp [hc]

/-- The weights loaded from a study of tune_model.py stand in the order of all the
    targets. -/
theorem load_params_from_study_best_params :
    load_params_from_study (best_params hyper skip weight) =
      TARGET_COLS.map (studyWeight skip weight) := by
  have hlegacy : (best_params hyper skip weight).lookup "alpha_lat".toList = none := by
    have hne : ∀ col ∈ TARGET_COLS, "alpha_lat".toList ≠ alpha_key col.label := by decide +kernel
    have hhead : "alpha_lat".toList.head? = some 'a' := by
      rw [String.toList_ofList]
      rfl
    rw [lookup_best_params hhead, List.lookup_eq_none_iff]
    intro p hp
    obtain ⟨col, -, rfl⟩ := List.mem_map.mp hp
    simpa using hne col (mem_TARGET_COLS col)
  unfold load_params_from_study
  rw [hlegacy, TARGET_LABELS_eq]
  dsimp only [Option.isSome_none]
  rw [if_neg Bool.false_ne_true, List.map_map]
  refine List.map_congr_left fun col _ => ?_
  have hlookup : (best_params hyper skip weight).lookup (alpha_key col.label) =
      if col ∈ skip then none else some (weight col.label) := by
    rw [lookup_best_params (head?_alpha_key _), lookup_alpha_key]
    simp [get_active_targets, mem_TARGET_COLS]
  show ((best_params hyper skip weight).lookup (alpha_key col.label)).getD 1 =
    studyWeight skip weight col
  rw [hlookup, studyWeight]
  split <;> rfl

/-! ## Weights of an optimiser -/

/-- `optimize`, given weights as a dictionary: the weight of a target. -/
def dictWeight (target_weights : TargetCol → Option K) (targets : List TargetCol)
    (k : TargetCol) : K :=
  (target_weights k).getD (if k ∈ targets then 1 else 0)

/-- `w_tensor`, in the optimiser for targets and in the one for objectives. -/
def w_tensor (target_weights : TargetCol → Option K) (targets : List TargetCol) : List K :=
  TARGET_COLS.map (dictWeight target_weights targets)

/-! ## Alignment -/

/-- Training weighs every output with the weight tuned for its label. -/
def TrainAligned (hyper : HyperParams K) (skip : List TargetCol) (weight : List Char → K) : Prop :=
  ∀ (i : ℕ) (col : TargetCol), (get_active_targets skip)[i]? = some col →
    (loss_weights (load_params_from_study (best_params hyper skip weight)) skip)[i]? =
      some (weight col.label)

/-- An optimiser weighs every output with the weight of its key. -/
def OptimizeAligned (skip : List TargetCol) (target_weights : TargetCol → Option K)
    (targets : List TargetCol) : Prop :=
  ∀ (i : ℕ) (k : TargetCol), (get_active_targets skip)[i]? = some k →
    (w_tensor target_weights targets)[i]? = some (dictWeight target_weights targets k)

/-- The skipped targets come last. -/
def SkippedLast (skip : List TargetCol) : Prop := KeptFirst (fun col => col ∉ skip) TARGET_COLS

/-- Every active target has the weight of the target whose place its output takes. -/
def WeightsAgree (skip : List TargetCol) (value : TargetCol → K) : Prop :=
  ∀ (i : ℕ) (col place : TargetCol), (get_active_targets skip)[i]? = some col →
    TARGET_COLS[i]? = some place → value place = value col

theorem trainAligned_iff (hyper : HyperParams K) (skip : List TargetCol)
    (weight : List Char → K) :
    TrainAligned hyper skip weight ↔ WeightsAgree skip (studyWeight skip weight) := by
  unfold TrainAligned WeightsAgree get_active_targets
  rw [← table_kept_iff]
  refine forall_congr' fun i => forall_congr' fun col => forall_congr' fun hcol => ?_
  have hactive : col ∉ skip := by simpa using (List.mem_filter.mp (List.mem_of_getElem? hcol)).2
  have hi : i < (get_active_targets skip).length := (List.getElem?_eq_some_iff.mp hcol).1
  have hown : studyWeight skip weight col = weight col.label := if_neg hactive
  rw [loss_weights, load_params_from_study_best_params, List.getElem?_take_of_lt hi, hown]

theorem optimizeAligned_iff (skip : List TargetCol) (target_weights : TargetCol → Option K)
    (targets : List TargetCol) :
    OptimizeAligned skip target_weights targets ↔
      WeightsAgree skip (dictWeight target_weights targets) :=
  table_kept_iff _ _

omit [Field K] in
theorem weightsAgree_of_skippedLast {skip : List TargetCol} (h : SkippedLast skip)
    (value : TargetCol → K) : WeightsAgree skip value := by
  intro i col place hcol hplace
  rw [filter_prefix_iff_getElem?.mp (filter_prefix_iff.mpr h) i col place hcol hplace]

/-- With a weight of its own for one target, no output of that target is displaced. -/
theorem skippedLast_of_weightsAgree {skip : List TargetCol}
    (h : ∀ weight : List Char → K, WeightsAgree skip (studyWeight skip weight)) :
    SkippedLast skip := by
  refine filter_prefix_iff.mp (filter_prefix_iff_getElem?.mpr fun i col place hcol hplace => ?_)
  have hactive : col ∉ skip := by simpa using (List.mem_filter.mp (List.mem_of_getElem? hcol)).2
  -- all weights are 1 but the one of `col`
  have hagree := h (fun label => if label = col.label then 0 else 1) i col place hcol hplace
  unfold studyWeight at hagree
  simp only [if_neg hactive, if_true] at hagree
  by_contra hne
  have hlabel : place.label ≠ col.label := fun hl =>
    hne (alpha_key_label_injective (congrArg alpha_key hl)).symm
  rw [if_neg hlabel, ite_self] at hagree
  exact one_ne_zero hagree

/-- The outputs of a model get their own targets' weights, in training after a study
    and in the optimisers, exactly when the targets whose places they take have the
    same weights; for all weights this is so exactly when the skipped targets come
    last. -/
theorem target_weights_aligned_iff (skip : List TargetCol) :
    (∀ (hyper : HyperParams K) (weight : List Char → K) (target_weights : TargetCol → Option K)
        (targets : List TargetCol),
        TrainAligned hyper skip weight ∧ OptimizeAligned skip target_weights targets ↔
          WeightsAgree skip (studyWeight skip weight) ∧
            WeightsAgree skip (dictWeight target_weights targets)) ∧
      ((∀ (hyper : HyperParams K) (weight : List Char → K)
          (target_weights : TargetCol → Option K) (targets : List TargetCol),
          TrainAligned hyper skip weight ∧ OptimizeAligned skip target_weights targets) ↔
        SkippedLast skip) := by
  constructor
  · intro hyper weight target_weights targets
    rw [trainAligned_iff, optimizeAligned_iff]
  · constructor
    · intro h
      refine skippedLast_of_weightsAgree (K := K) fun weight => ?_
      have htrain := (h ⟨0, 0, 0, 0, 0⟩ weight (fun _ => none) []).1
      exact (trainAligned_iff _ _ _).mp htrain
    · intro h hyper weight target_weights targets
      rw [trainAligned_iff, optimizeAligned_iff]
      exact ⟨weightsAgree_of_skippedLast h _, weightsAgree_of_skippedLast h _⟩

/-- SRAM skips the refresh targets: the output for the read energy is trained with
    the weight of the refresh latency, which the study lacks. -/
theorem sram_weights_misaligned :
    ¬ ∀ (hyper : HyperParams ℚ) (weight : List Char → ℚ) (target_weights : TargetCol → Option ℚ)
        (targets : List TargetCol),
        TrainAligned hyper [cache_refresh_latency_ns, cache_refresh_energy_nJ] weight ∧
          OptimizeAligned [cache_refresh_latency_ns, cache_refresh_energy_nJ] target_weights
            targets := by
  intro h
  have htrain := (h ⟨0, 0, 0, 0, 0⟩ (fun _ => 2) (fun _ => none) []).1
  rw [trainAligned_iff] at htrain
  -- the fourth output
  have hfour := htrain 3 cache_hit_energy_nJ cache_refresh_latency_ns rfl rfl
  exact absurd hfour (by decide)

end

end Destiny.Inverse
