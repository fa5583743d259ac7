/-
  Destiny.Sweep.CellRoundTrip

  Whether a cell that `generate_synthetic_cells` accepts is still valid when it is
  read back from the file written for it.

  The checks run on the sampled floats and the writer rounds each of them by
  itself.  Texts, integers, the limits on set pulse and set voltage and the ceiling
  of a node survive; the ratios of two rounded values, and the retention time
  against the leakage, need not (`validity_survives_writing_iff`).
-/

import Destiny.Sweep.CellText

namespace Destiny.Sweep

open Lib

/-! ## Printed values -/

/-- A float as it is written: to three significant digits below one millionth, to
    four decimals from there on. -/
def printed (x : ℚ) : ℚ :=
  if x < 1e-6 then roundTo (digitPlace 2 |x|) x else roundTo (1 / 10 ^ 4) x

/-- The float that is read back. -/
def CellValue.printed : CellValue → Option ℚ
  | .text t => pyFloat t
  | .int n => some (n : ℚ)
  | .float x => some (Sweep.printed x)

theorem pyFloat_format (v : CellValue) : pyFloat v.format = v.printed := by
  cases v with
  | text t => rfl
  | int n => exact pyFloat_integer n
  | float x =>
      unfold CellValue.format CellValue.printed Sweep.printed
      dsimp only
      split_ifs
      · rw [Decimal.pyFloat_text, value_scientificFormat]
      · rw [Decimal.pyFloat_text, value_fixedFormat]

theorem printed_of_toFloat {v : CellValue} {x : ℚ} (h : v.toFloat = some x) :
    v.printed = some x ∨ v.printed = some (printed x) := by
  cases v with
  | text t => exact .inl h
  | int n => exact .inl h
  | float y =>
      obtain rfl := Option.some.inj h
      exact .inr rfl

/-- Three digits of a small number are not far from it. -/
theorem printed_le_of_small {x : ℚ} (h : x < 1e-6) : printed x ≤ 1e-5 := by
  rw [printed, if_pos h]
  rcases lt_trichotomy x 0 with hneg | rfl | hpos
  · have hnear := abs_roundTo_digitPlace_sub_le 2 (neg_pos.mpr hneg)
    rw [roundTo_neg, ← abs_of_neg hneg] at hnear
    have hle := (abs_le.mp hnear).1
    rw [abs_of_neg hneg] at hle ⊢
    linarith
  · rw [roundTo, zero_div]
    norm_num [show roundHalfEven 0 = 0 from roundHalfEven_intCast 0]
  · have hnear := abs_roundTo_digitPlace_sub_le 2 hpos
    have hle := (abs_le.mp hnear).2
    rw [abs_of_pos hpos]
    norm_num at h hle ⊢
    linarith

/-- A limit with four decimals is kept from above ... -/
theorem printed_le {x limit : ℚ} {n : ℤ} (hlimit : limit = n * (1 / 10 ^ 4))
    (hpos : 1e-5 ≤ limit) (h : x ≤ limit) : printed x ≤ limit := by
  by_cases hsmall : x < 1e-6
  · exact (printed_le_of_small hsmall).trans hpos
  · rw [printed, if_neg hsmall, hlimit]
    exact roundTo_le (by norm_num) (hlimit ▸ h)

/-- ... and from below. -/
theorem le_printed {x limit : ℚ} {n : ℤ} (hlimit : limit = n * (1 / 10 ^ 4))
    (hpos : 1e-6 ≤ limit) (h : limit ≤ x) : limit ≤ printed x := by
  rw [printed, if_neg (not_lt.mpr (hpos.trans h)), hlimit]
  exact le_roundTo (by norm_num) (hlimit ▸ h)

/-! ## Checked values -/

/-- What `float(p[key])` is after a file was written and read. -/
def printedAt (p : PyDict CellValue) (key : CheckedKey) : Option ℚ :=
  (p.get? key.name).bind CellValue.printed

theorem CheckedKey.written (key : CheckedKey) :
    (!(key.name == type_key || isComment key.name)) = true := by
  have hkeys : ∀ key ∈ CheckedKey.all, (!(key.name == type_key || isComment key.name)) = true := by
    decide +kernel
  exact hkeys key key.mem_all

theorem floatAt_read {repr : ℚ → Decimal} {p : SyntheticParams} {q : PyDict CellValue}
    (hq : q.items = writtenItems repr p.toPyDict) (key : CheckedKey) :
    floatAt q key = printedAt p.toPyDict key := by
  have hkey := key.written
  have hget : q.get? key.name = (p.get? key.name).map fun v => .text v.format := by
    ext v'
    rw [PyDict.get?_eq_some_iff, hq, writtenItems, List.mem_append, Option.map_eq_some_iff]
    constructor
    · rintro (h | h)
      · -- the type of the cell is not checked
        obtain ⟨kv, hkv, heq⟩ := List.mem_map.mp h
        have htype := (mem_items_of_mem_typeItems hkv).2
        rw [← (Prod.mk.inj heq).1, htype] at hkey
        simp at hkey
      · obtain ⟨kv, hkv, heq⟩ := List.mem_map.mp h
        obtain ⟨hname, rfl⟩ := Prod.mk.inj heq
        exact ⟨kv.2, PyDict.get?_eq_some_iff.mpr (hname ▸ (List.mem_filter.mp hkv).1), rfl⟩
    · rintro ⟨v, hv, rfl⟩
      exact .inr (List.mem_map.mpr ⟨(key.name, v),
        List.mem_filter.mpr ⟨PyDict.get?_eq_some_iff.mp hv, hkey⟩, rfl⟩)
  unfold floatAt printedAt
  rw [hget]
  cases p.get? key.name with
  | none => rfl
  | some v => exact pyFloat_format v

theorem printedAt_of_floatAt {p : PyDict CellValue} {key : CheckedKey} {x : ℚ}
    (h : floatAt p key = some x) :
    printedAt p key = some x ∨ printedAt p key = some (printed x) := by
  obtain ⟨v, hv, hx⟩ := Option.bind_eq_some_iff.mp h
  unfold printedAt
  rw [hv]
  exact printed_of_toFloat hx

/-- A checked value between limits with four decimals stays between them. -/
theorem printedAt_between {p : PyDict CellValue} {key : CheckedKey} {x lo hi : ℚ} {m n : ℤ}
    (h : floatAt p key = some x) (hlo : lo = m * (1 / 10 ^ 4)) (hlo_pos : 1e-5 ≤ lo)
    (hhi : hi = n * (1 / 10 ^ 4)) (hx : lo ≤ x ∧ x ≤ hi) :
    ∃ y, printedAt p key = some y ∧ lo ≤ y ∧ y ≤ hi := by
  have hhi_pos : 1e-5 ≤ hi := hlo_pos.trans (hx.1.trans hx.2)
  rcases printedAt_of_floatAt h with hp | hp
  · exact ⟨x, hp, hx⟩
  · exact ⟨printed x, hp, le_printed hlo (le_trans (by norm_num) hlo_pos) hx.1,
      printed_le hhi hhi_pos hx.2⟩

/-- The ceiling of a node has no decimals. -/
theorem printedAt_le_ceiling {p : PyDict CellValue} {key : CheckedKey} {x : ℚ} {process_node : ℕ}
    (h : floatAt p key = some x) (hx : x ≤ (RETENTION_MAX process_node).getD 40) :
    ∃ y, printedAt p key = some y ∧ y ≤ (RETENTION_MAX process_node).getD 40 := by
  obtain ⟨n, hn, hpos⟩ : ∃ n : ℤ, (RETENTION_MAX process_node).getD 40 = n * (1 / 10 ^ 4) ∧
      (1e-5 : ℚ) ≤ (RETENTION_MAX process_node).getD 40 := by
    unfold RETENTION_MAX
    split
    · exact ⟨400000, by norm_num, by norm_num⟩
    · exact ⟨300000, by norm_num, by norm_num⟩
    · exact ⟨200000, by norm_num, by norm_num⟩
    · exact ⟨400000, by norm_num, by norm_num⟩
  rcases printedAt_of_floatAt h with hp | hp
  · exact ⟨x, hp, hx⟩
  · exact ⟨printed x, hp, printed_le hn hpos hx⟩

/-! ## Cells that stay valid -/

/-- The relations between rounded values: the width ratios, the resistance ratio, the
    retention time against the leakage. -/
def RatiosSurvive (mem_type : MemType) (process_node : ℕ) (p : PyDict CellValue) : Prop :=
  match mem_type with
  | .SRAM => ∃ wn wp wac, printedAt p .SRAMCellNMOSWidth = some wn ∧
      printedAt p .SRAMCellPMOSWidth = some wp ∧ printedAt p .AccessCMOSWidth = some wac ∧
      wac ≠ 0 ∧ 2 ≤ wn / wac ∧ wp / wac < 1
  | .RRAM => ∃ ron roff, printedAt p .ResistanceOnAtSetVoltage = some ron ∧
      printedAt p .ResistanceOffAtSetVoltage = some roff ∧
      ron ≠ 0 ∧ 10 ≤ roff / ron ∧ roff / ron ≤ 1e4
  | .eDRAM => ∃ c wac tret, printedAt p .DRAMCellCapacitance = some c ∧
      printedAt p .AccessCMOSWidth = some wac ∧ printedAt p .RetentionTime = some tret ∧
      ∃ t_max, max_retention_from_cell c wac process_node = some t_max ∧ tret ≤ t_max

/-- The predicate on the values read back. -/
theorem valid_read_iff {mem_type : MemType} {process_node : ℕ} {repr : ℚ → Decimal}
    {p : SyntheticParams} {q : PyDict CellValue}
    (h : valid mem_type process_node p.toPyDict = true)
    (hq : q.items = writtenItems repr p.toPyDict) :
    valid mem_type process_node q = true ↔ RatiosSurvive mem_type process_node p.toPyDict := by
  have hread := floatAt_read hq
  cases mem_type with
  | SRAM =>
      show valid_sram q = true ↔ _
      rw [valid_sram_iff]
      simp only [hread]
      rfl
  | RRAM =>
      obtain ⟨-, -, vset, pulse, -, -, hvset, hpulse, -, hpulse_bounds, hvset_bounds⟩ :=
        valid_rram_iff.mp h
      -- fixed bounds survive the printing, the ratio of two values need not
      obtain ⟨vset', hvset', hvset_bounds'⟩ := printedAt_between (m := 15000) (n := 50000) hvset
        (by norm_num) (by norm_num) (by norm_num) hvset_bounds
      obtain ⟨pulse', hpulse', hpulse_bounds'⟩ := printedAt_between (m := 20000) (n := 500000)
        hpulse (by norm_num) (by norm_num) (by norm_num) hpulse_bounds
      show valid_rram q = true ↔ _
      rw [valid_rram_iff]
      simp only [hread]
      constructor
      · rintro ⟨ron, roff, -, -, hron, hroff, -, -, hratio, -⟩
        exact ⟨ron, roff, hron, hroff, hratio⟩
      · rintro ⟨ron, roff, hron, hroff, hratio⟩
        exact ⟨ron, roff, vset', pulse', hron, hroff, hvset', hpulse', hratio, hpulse_bounds',
          hvset_bounds'⟩
  | eDRAM =>
      obtain ⟨-, -, tret, -, -, htret, hceiling, -⟩ := valid_edram_iff.mp h
      -- the ceiling survives, the bound by the largest retention time need not
      obtain ⟨tret', htret', hceiling'⟩ := printedAt_le_ceiling htret hceiling
      show valid_edram q process_node = true ↔ _
      rw [valid_edram_iff]
      simp only [hread]
      constructor
      · rintro ⟨c, wac, t, hc, hwac, ht, -, hmax⟩
        exact ⟨c, wac, t, hc, hwac, ht, hmax⟩
      · rintro ⟨c, wac, t, hc, hwac, ht, hmax⟩
        obtain rfl := Option.some.inj (htret'.symm.trans ht)
        exact ⟨c, wac, tret', hc, hwac, ht, hceiling', hmax⟩

/-- The file written for a valid cell is read back, and as a valid cell exactly when
    the relations between its rounded values survive. -/
theorem validity_survives_writing_iff (repr : ℚ → Decimal) {mem_type : MemType}
    {process_node : ℕ} {p : SyntheticParams}
    (h : valid mem_type process_node p.toPyDict = true) :
    (∃ q, parse_cell_file (write_cell_file repr p.toPyDict) = some q ∧
        valid mem_type process_node q = true) ↔
      RatiosSurvive mem_type process_node p.toPyDict := by
  obtain ⟨q, hq, hitems⟩ := parse_write repr p
  constructor
  · rintro ⟨q', hq', hvalid⟩
    obtain rfl := Option.some.inj (hq.symm.trans hq')
    exact (valid_read_iff h hitems).mp hvalid
  · exact fun hsurvive => ⟨q, hq, (valid_read_iff h hitems).mpr hsurvive⟩

/-! ## Sampled cells -/

/-- A check that a text fills its place in a line. -/
def fitsText (t : List Char) : Bool := strip t == t && t.all fun c => !isNewline c

/-- A check that a text can be a key. -/
def fitsKey (t : List Char) : Bool := fitsText t && t.all fun c => c != ':'

theorem lineText_of_fitsText {t : List Char} (h : fitsText t = true) : LineText t := by
  obtain ⟨hstrip, hall⟩ := Bool.and_eq_true_iff.mp h
  have hstripped := stripped_strip t
  rw [beq_iff_eq.mp hstrip] at hstripped
  exact ⟨hstripped, fun c hc => by simpa using List.all_eq_true.mp hall c hc⟩

theorem keyText_of_fitsKey {t : List Char} (h : fitsKey t = true) : KeyText t := by
  obtain ⟨htext, hall⟩ := Bool.and_eq_true_iff.mp h
  exact ⟨lineText_of_fitsText htext, fun hc => by simpa using List.all_eq_true.mp hall ':' hc⟩

theorem CheckedKey.keyText (key : CheckedKey) : KeyText key.name := by
  have hkeys : (CheckedKey.all.all fun key => fitsKey key.name) = true := by decide +kernel
  exact keyText_of_fitsKey (List.all_eq_true.mp hkeys key key.mem_all)

/-- A sampled value in its place. -/
def SyntheticParams.sample (p : SyntheticParams) (key : CheckedKey) (x : ℚ) : SyntheticParams :=
  p.assign key.keyText (.float x) fun t ht => by cases ht

def SyntheticParams.none : SyntheticParams := ⟨.empty, List.forall_mem_nil _, List.forall_mem_nil _⟩

/-- A cell with these transistor widths. -/
def sramCell (wn wp wac : ℚ) : SyntheticParams :=
  ((SyntheticParams.none.sample .SRAMCellNMOSWidth wn).sample .SRAMCellPMOSWidth wp).sample
    .AccessCMOSWidth wac

theorem validity_survives_writing_iff_wide :
    ∃ q, parse_cell_file (write_cell_file (fixedFormat 4) (sramCell 2.5 1 1.2).toPyDict) = some q ∧
      valid .SRAM 45 q = true := by
  refine (validity_survives_writing_iff (fixedFormat 4) (by decide +kernel)).mpr ?_
  exact ⟨2.5, 1, 1.2, by decide +kernel, by decide +kernel, by decide +kernel, by norm_num,
    by norm_num, by norm_num⟩

/-- A pull-up transistor narrower than the access transistor by less than the last
    digit printed. -/
theorem sram_validity_lost_in_writing :
    ¬ ∀ (repr : ℚ → Decimal) (mem_type : MemType) (process_node : ℕ) (p : SyntheticParams),
      valid mem_type process_node p.toPyDict = true →
        ∃ q, parse_cell_file (write_cell_file repr p.toPyDict) = some q ∧
          valid mem_type process_node q = true := by
  intro h
  obtain ⟨q, hq, hvalid⟩ := h (fixedFormat 4) .SRAM 45 (sramCell 2.5 1.00001 1.00002)
    (by decide +kernel)
  obtain ⟨q', hq', hitems⟩ := parse_write (fixedFormat 4) (sramCell 2.5 1.00001 1.00002)
  obtain rfl := Option.some.inj (hq.symm.trans hq')
  obtain ⟨wn, wp, wac, -, hwp, hwac, -, -, hratio⟩ :=
    (valid_read_iff (by decide +kernel) hitems).mp hvalid
  have hone : printedAt (sramCell 2.5 1.00001 1.00002).toPyDict .SRAMCellPMOSWidth = some 1 := by
    decide +kernel
  have hone' : printedAt (sramCell 2.5 1.00001 1.00002).toPyDict .AccessCMOSWidth = some 1 := by
    decide +kernel
  obtain rfl := Option.some.inj (hone.symm.trans hwp)
  obtain rfl := Option.some.inj (hone'.symm.trans hwac)
  norm_num at hratio

end Destiny.Sweep
