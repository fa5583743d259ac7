/-
  Destiny.Csv.RoundTrip

  Whether the layout of a design survives the way through the CSV file: printed
  by `printToCsvFile`, picked up by `layout_from_row`, written into a configuration
  file by `generate_destiny_configs` and read by `ReadInputParameterFromFile`.

  Each line of the configuration file is the format of an option followed by what the
  option scans, so the reader takes it for that option (`parseLine_text`).  The
  layout columns lack the total subarrays, and the option of a repeater type with
  overhead is spelt differently by the writer and the reader;
  `layout_round_trip_iff` says that nothing else is lost.
-/

import Destiny.Config.Lines
import Destiny.Csv.ConfigFile
import Destiny.Lib.Format

namespace Destiny

open Lib

/-! ## Reading a line -/

/-- A format is one line that starts with a dash and ends with a blank, and has no two
    white spaces in a row. -/
theorem ConfigOption.label_shape (o : ConfigOption) :
    singleSpaced o.label = true ∧ o.label.getLast? = some ' ' ∧ o.label.head? = some '-' ∧
      '\n' ∉ o.label := by
  have hlabel : ∃ l, o.label = l ∧ singleSpaced l = true ∧ l.getLast? = some ' ' ∧
      l.head? = some '-' ∧ '\n' ∉ l := by
    cases o <;> exact ⟨_, toList_append_ofList, by decide⟩
  obtain ⟨l, rfl, hshape⟩ := hlabel
  exact hshape

theorem ConfigOption.scanLiteral_label (o : ConfigOption) (r : List Char) :
    scanLiteral o.label (o.label ++ r) = some (skipSpace r) := by
  obtain ⟨hsingle, hlast, -⟩ := o.label_shape
  exact scanLiteral_append_space hsingle hlast r

/-- A line that starts with the format of an option is read by its branch. -/
theorem parseLine_text (l : ConfigLine) : parseLine l.text = l.1.parse l.text := by
  have hkey : l.1.key <+: l.text := ⟨l.1.unit ++ l.2, by
    rw [ConfigLine.text, ConfigOption.label, List.append_assoc]⟩
  have hlabel : scanLiteral l.1.label l.text ≠ none := by
    rw [ConfigLine.text, l.1.scanLiteral_label]
    exact Option.some_ne_none _
  unfold parseLine
  rw [branchOf_eq_some ConfigOption.pairwise_diverges l.1.mem_all hkey hlabel]

/-- A text `%s` reads as a whole. -/
def IsWord (w : List Char) : Prop := w ≠ [] ∧ ∀ c ∈ w, isspace c = false

theorem isWord_of_all {w : List Char} (hne : w.isEmpty = false)
    (hall : (w.all fun c => !isspace c) = true) : IsWord w :=
  ⟨List.isEmpty_eq_false_iff.mp hne, fun c hc => by simpa using List.all_eq_true.mp hall c hc⟩

section
variable (o : ConfigOption)

theorem scan_word {w : List Char} (hw : IsWord w) :
    ((scanLiteral o.label (ConfigLine.text (o, w))).bind scanWord).map Prod.fst = some w := by
  have hskip : skipSpace w = w :=
    skipSpace_of_head fun c hc => hw.2 c (List.mem_of_mem_head? hc)
  rw [ConfigLine.text, o.scanLiteral_label, hskip, Option.bind_some, scanWord_word hw.1 hw.2]
  rfl

theorem scan_int (n : ℤ) :
    ((scanLiteral o.label (ConfigLine.text (o, integer n))).bind scanInt).map Prod.fst =
      some n := by
  have hskip := skipSpace_integer n []
  have hscan : scanInt (integer n ++ []) = some (n, []) := scanInt_integer n (by simp)
  rw [List.append_nil] at hskip hscan
  rw [ConfigLine.text, o.scanLiteral_label, hskip, Option.bind_some, hscan]
  rfl

theorem scan_counts (a b c d : ℤ) :
    scanInts [o.label, "x".toList, ", ".toList, "x".toList]
      (ConfigLine.text (o, counts a b c d)) = [a, b, c, d] := by
  obtain ⟨hsingle, hblank, -⟩ := o.label_shape
  have hlabel : beforeInteger o.label = true := by
    simp [beforeInteger, hsingle, hblank]
  -- no digit follows the first three numbers
  have hx (t : List Char) : ∀ e ∈ ("x".toList ++ t).head?, e.isDigit = false := by
    intro e he
    obtain rfl : 'x' = e := Option.some.inj he
    rfl
  have hcomma (t : List Char) : ∀ e ∈ (", ".toList ++ t).head?, e.isDigit = false := by
    intro e he
    obtain rfl : ',' = e := Option.some.inj he
    rfl
  have hlast : scanInts ["x".toList] ("x".toList ++ (integer d ++ [])) = [d] :=
    scanInts_integer (by decide) [] d (by simp)
  rw [List.append_nil] at hlast
  unfold ConfigLine.text counts
  rw [scanInts_integer hlabel _ _ (hx _), scanInts_integer (by decide) _ _ (hcomma _),
    scanInts_integer (by decide) _ _ (hx _), hlast]

end

/-! ## What the lines say -/

/-- The reader takes the line for this option line. -/
def Reads (l : ConfigLine) (o : OptionLine) : Prop := parseLine l.text = some o

section
variable {o : ConfigOption}

theorem reads_word {f : List Char → OptionLine}
    (h : ∀ line, o.parse line =
      (((scanLiteral o.label line).bind scanWord).map Prod.fst).map f)
    {w : List Char} (hw : IsWord w) : Reads (o, w) (f w) := by
  rw [Reads, parseLine_text, h, scan_word o hw, Option.map_some]

theorem reads_int {f : ℤ → OptionLine}
    (h : ∀ line, o.parse line = (((scanLiteral o.label line).bind scanInt).map Prod.fst).map f)
    (n : ℤ) : Reads (o, integer n) (f n) := by
  rw [Reads, parseLine_text, h, scan_int o n, Option.map_some]

theorem reads_nat {f : ℕ → OptionLine}
    (h : ∀ line, o.parse line =
      ((((scanLiteral o.label line).bind scanInt).map Prod.fst).map Int.toNat).map f)
    (n : ℤ) : Reads (o, integer n) (f n.toNat) := by
  rw [Reads, parseLine_text, h, scan_int o n, Option.map_some, Option.map_some]

theorem reads_counts {f : ℤ → ℤ → ℤ → ℤ → OptionLine}
    (h : ∀ line, o.parse line =
      match scanInts [o.label, "x".toList, ", ".toList, "x".toList] line with
      | [a, b, c, d] => some (f a b c d)
      | _ => none)
    (a b c d : ℤ) : Reads (o, counts a b c d) (f a b c d) := by
  rw [Reads, parseLine_text, h, scan_counts o a b c d]

/-- A text that is not blank starts with a word. -/
theorem reads_text {f : List Char → OptionLine}
    (h : ∀ line, o.parse line =
      (((scanLiteral o.label line).bind scanWord).map Prod.fst).map f)
    (t : LineText) : ∃ w, Reads (o, t.text) (f w) := by
  have hblank : skipSpace t.text ≠ [] := by
    intro hnil
    have hnot := t.not_blank
    rw [← notBlank_skipSpace, hnil] at hnot
    cases hnot
  obtain ⟨c, u, hskip, hc⟩ := (skipSpace_cases t.text).resolve_left hblank
  refine ⟨((c :: u).takeWhile fun d => !isspace d), ?_⟩
  have hagain : skipSpace (c :: u) = c :: u := skipSpace_cons_of_not hc u
  rw [Reads, parseLine_text, h, ConfigLine.text, o.scanLiteral_label, hskip, Option.bind_some]
  simp [scanWord, hagain, hc]

end

theorem isWord_wireType (t : WireType) : IsWord (map_wire_type (.text t.csvText)) :=
  isWord_of_all (by cases t <;> rfl) (by cases t <;> rfl)

theorem isWord_repeater (t : WireRepeaterType) : IsWord (map_repeater (.text t.csvText)) :=
  isWord_of_all (by cases t <;> rfl) (by cases t <;> rfl)

theorem isWord_yesOrNo (b : Bool) : IsWord (yesOrNo b) :=
  isWord_of_all (by cases b <;> rfl) (by cases b <;> rfl)

theorem isWord_bufferLevel (t : BufferDesignTarget) : IsWord (bufferLevel (.text t.csvText)) :=
  isWord_of_all (by cases t <;> rfl) (by cases t <;> rfl)

/-- The option lines that leave the bounds of the data array alone. -/
def OptionLine.KeepsData (o : OptionLine) : Prop := ∀ b : ArrayBounds, b.applyDataLine o = b

theorem ConfigArgs.reads (a : ConfigArgs) :
    ∃ opts, List.Forall₂ Reads a.configLines opts ∧ ∀ o ∈ opts, o.KeepsData := by
  obtain ⟨target, htarget⟩ := reads_text (o := .optimizationTarget) (fun _ => rfl) a.opt_target
  obtain ⟨file, hfile⟩ := reads_text (o := .memoryCellInputFile) (fun _ => rfl) a.cell_file
  have hpruning : Reads (.enablePruning, "Yes".toList) (.enablePruning (isYes "Yes".toList)) :=
    reads_word (f := fun w => .enablePruning (isYes w)) (fun _ => rfl) (isWord_yesOrNo true)
  have hother {o : ConfigOption} (h : ∀ line, o.parse line = some .other) (w : List Char) :
      Reads (o, w) .other := by
    rw [Reads, parseLine_text, h]
  refine ⟨_, .cons htarget (.cons hpruning (.cons (reads_nat (fun _ => rfl) _)
    (.cons (reads_nat (fun _ => rfl) _) (.cons (reads_nat (fun _ => rfl) _)
    (.cons (reads_int (fun _ => rfl) _) (.cons (hother (fun _ => rfl) _)
    (.cons (hother (fun _ => rfl) _) (.cons hfile (.cons (hother (fun _ => rfl) _)
    .nil))))))))), ?_⟩
  simp only [List.forall_mem_cons]
  exact ⟨fun _ => rfl, fun _ => rfl, fun _ => rfl, fun _ => rfl, fun _ => rfl, fun _ => rfl,
    fun _ => rfl, fun _ => rfl, fun _ => rfl, fun _ => rfl, fun _ h => absurd h List.not_mem_nil⟩

section
variable {g : CsvGlobals} (reader : CsvReader)

theorem CacheRow.reads_tagLines (w : CacheRow g) :
    ∃ opts, List.Forall₂ Reads w.tagLines opts ∧ ∀ o ∈ opts, o.KeepsData := by
  have htype (t : WireType) := isWord_wireType t
  have hrepeater (t : WireRepeaterType) := isWord_repeater t
  have hswing (b : Bool) := isWord_yesOrNo b
  refine ⟨_,
    .cons (reads_word (f := fun v => .tagBufferDesignOptimization (BufferDesignTarget.ofWord v))
      (fun _ => rfl) (isWord_bufferLevel _))
    (.cons (reads_word (f := fun v => .tagLocalWireType (WireType.ofWord v)) (fun _ => rfl)
      (htype _))
    (.cons (reads_word (f := fun v => .tagLocalWireRepeaterType (WireRepeaterType.ofWord v))
      (fun _ => rfl) (hrepeater _))
    (.cons (reads_word (f := fun v => .tagLocalWireUseLowSwing (isYes v)) (fun _ => rfl)
      (hswing _))
    (.cons (reads_word (f := fun v => .tagGlobalWireType (WireType.ofWord v)) (fun _ => rfl)
      (htype _))
    (.cons (reads_word (f := fun v => .tagGlobalWireRepeaterType (WireRepeaterType.ofWord v))
      (fun _ => rfl) (hrepeater _))
    (.cons (reads_word (f := fun v => .tagGlobalWireUseLowSwing (isYes v)) (fun _ => rfl)
      (hswing _))
    (.cons (reads_int (fun _ => rfl) _) (.cons (reads_int (fun _ => rfl) _)
    (.cons (reads_int (fun _ => rfl) _) (.cons (reads_counts (fun _ => rfl) _ _ _ _)
    (.cons (reads_counts (fun _ => rfl) _ _ _ _) .nil))))))))))), ?_⟩
  simp only [List.forall_mem_cons]
  exact ⟨fun _ => rfl, fun _ => rfl, fun _ => rfl, fun _ => rfl, fun _ => rfl, fun _ => rfl,
    fun _ => rfl, fun _ => rfl, fun _ => rfl, fun _ => rfl, fun _ => rfl, fun _ => rfl,
    fun _ h => absurd h List.not_mem_nil⟩

/-! ## The data array -/

theorem ofWord_wireType (t : WireType) :
    WireType.ofWord (map_wire_type (.text t.csvText)) = t := by
  cases t <;> decide

/-- What is left of a repeater type. -/
def WireRepeaterType.written (t : WireRepeaterType) : WireRepeaterType :=
  if t = .repeated_opt then .repeated_opt else .repeated_none

theorem ofWord_repeater (t : WireRepeaterType) :
    WireRepeaterType.ofWord (map_repeater (.text t.csvText)) = t.written := by
  cases t <;> decide

theorem written_eq_iff (t : WireRepeaterType) :
    t.written = t ↔ t = .repeated_none ∨ t = .repeated_opt := by
  cases t <;> decide

theorem isYes_yesOrNo (b : Bool) : isYes (yesOrNo b) = b := by
  cases b <;> decide

theorem ofWord_bufferLevel (t : BufferDesignTarget) :
    BufferDesignTarget.ofWord (bufferLevel (.text t.csvText)) = t := by
  cases t <;> decide

section
variable (w : CacheRow g)

def CacheRow.dataArrayOptions : List OptionLine :=
  let d := w.data.bank.geometry
  [.forceMuxSenseAmp d.muxSenseAmp, .forceMuxOutputLev1 d.muxOutputLev1,
   .forceMuxOutputLev2 d.muxOutputLev2,
   .forceBank d.numActiveMatPerColumn d.numActiveMatPerRow d.numActiveMatPerColumn
     d.numActiveMatPerRow,
   .forceMat d.numActiveSubarrayPerColumn d.numActiveSubarrayPerRow
     d.numActiveSubarrayPerColumn d.numActiveSubarrayPerRow]

theorem CacheRow.reads_dataArrayLines :
    List.Forall₂ Reads w.dataArrayLines w.dataArrayOptions :=
  .cons (reads_int (fun _ => rfl) _) (.cons (reads_int (fun _ => rfl) _)
    (.cons (reads_int (fun _ => rfl) _) (.cons (reads_counts (fun _ => rfl) _ _ _ _)
      (.cons (reads_counts (fun _ => rfl) _ _ _ _) .nil))))

def CacheRow.dataWireOptions : List OptionLine :=
  [.localWireType w.data.localWire.wireType,
   .localWireRepeaterType w.data.localWire.wireRepeaterType.written,
   .localWireUseLowSwing w.data.localWire.isLowSwing,
   .globalWireType w.data.globalWire.wireType,
   .globalWireRepeaterType w.data.globalWire.wireRepeaterType.written,
   .globalWireUseLowSwing w.data.globalWire.isLowSwing,
   .bufferDesignOptimization w.data.bank.geometry.areaOptimizationLevel]

theorem CacheRow.reads_dataWireLines :
    List.Forall₂ Reads w.dataWireLines w.dataWireOptions := by
  have htype {o : ConfigOption} {f : WireType → OptionLine}
      (h : ∀ line, o.parse line = (((scanLiteral o.label line).bind scanWord).map Prod.fst).map
        fun v => f (WireType.ofWord v)) (t : WireType) :
      Reads (o, map_wire_type (.text t.csvText)) (f t) := by
    have hread := reads_word h (isWord_wireType t)
    rwa [ofWord_wireType] at hread
  have hrepeater {o : ConfigOption} {f : WireRepeaterType → OptionLine}
      (h : ∀ line, o.parse line = (((scanLiteral o.label line).bind scanWord).map Prod.fst).map
        fun v => f (WireRepeaterType.ofWord v)) (t : WireRepeaterType) :
      Reads (o, map_repeater (.text t.csvText)) (f t.written) := by
    have hread := reads_word h (isWord_repeater t)
    rwa [ofWord_repeater] at hread
  have hswing {o : ConfigOption} {f : Bool → OptionLine}
      (h : ∀ line, o.parse line = (((scanLiteral o.label line).bind scanWord).map Prod.fst).map
        fun v => f (isYes v)) (b : Bool) : Reads (o, yesOrNo b) (f b) := by
    have hread := reads_word h (isWord_yesOrNo b)
    rwa [isYes_yesOrNo] at hread
  have hbuffer : Reads (.bufferDesignOptimization,
      bufferLevel (.text w.data.bank.geometry.areaOptimizationLevel.csvText))
      (.bufferDesignOptimization w.data.bank.geometry.areaOptimizationLevel) := by
    have hread := reads_word (o := .bufferDesignOptimization)
      (f := fun v => .bufferDesignOptimization (BufferDesignTarget.ofWord v)) (fun _ => rfl)
      (isWord_bufferLevel w.data.bank.geometry.areaOptimizationLevel)
    rwa [ofWord_bufferLevel] at hread
  exact .cons (htype (fun _ => rfl) _) (.cons (hrepeater (fun _ => rfl) _)
    (.cons (hswing (fun _ => rfl) _) (.cons (htype (fun _ => rfl) _)
      (.cons (hrepeater (fun _ => rfl) _) (.cons (hswing (fun _ => rfl) _)
        (.cons hbuffer .nil))))))

/-! ## The whole way -/

/-- Every bound pinned to what the design has. -/
def ReportedResult.pinned (r : ReportedResult) : ArrayBounds :=
  let d := r.bank.geometry
  { numRowMat := .pin d.numRowMat
    numColumnMat := .pin d.numColumnMat
    numActiveMatPerRow := .pin d.numActiveMatPerRow
    numActiveMatPerColumn := .pin d.numActiveMatPerColumn
    numRowSubarray := .pin d.numRowSubarray
    numColumnSubarray := .pin d.numColumnSubarray
    numActiveSubarrayPerRow := .pin d.numActiveSubarrayPerRow
    numActiveSubarrayPerColumn := .pin d.numActiveSubarrayPerColumn
    muxSenseAmp := .pin d.muxSenseAmp
    muxOutputLev1 := .pin d.muxOutputLev1
    muxOutputLev2 := .pin d.muxOutputLev2
    areaOptimizationLevel := .pin d.areaOptimizationLevel
    localWireType := .pin r.localWire.wireType
    globalWireType := .pin r.globalWire.wireType
    localWireRepeaterType := .pin r.localWire.wireRepeaterType
    globalWireRepeaterType := .pin r.globalWire.wireRepeaterType
    isLocalWireLowSwing := .pin r.localWire.isLowSwing
    isGlobalWireLowSwing := .pin r.globalWire.isLowSwing }

/-- The bounds of the data array after reading the configuration file. -/
def CacheRow.readBack : ArrayBounds :=
  let d := w.data.bank.geometry
  { w.data.pinned with
    numRowMat := .pin d.numActiveMatPerColumn
    numColumnMat := .pin d.numActiveMatPerRow
    numRowSubarray := .pin d.numActiveSubarrayPerColumn
    numColumnSubarray := .pin d.numActiveSubarrayPerRow
    localWireRepeaterType := .pin w.data.localWire.wireRepeaterType.written
    globalWireRepeaterType := .pin w.data.globalWire.wireRepeaterType.written }

theorem CacheRow.foldl_dataOptions (b : ArrayBounds) :
    w.dataWireOptions.foldl ArrayBounds.applyDataLine
      (w.dataArrayOptions.foldl ArrayBounds.applyDataLine b) = w.readBack := rfl

theorem foldl_keepsData {opts : List OptionLine} (h : ∀ o ∈ opts, o.KeepsData)
    (b : ArrayBounds) : opts.foldl ArrayBounds.applyDataLine b = b := by
  induction opts generalizing b with
  | nil => rfl
  | cons o opts ih =>
      obtain ⟨ho, hopts⟩ := List.forall_mem_cons.mp h
      rw [List.foldl_cons, ho b]
      exact ih hopts b

theorem InputParameter.read_data (ip : InputParameter) (opts : List OptionLine) :
    (ip.ReadInputParameterFromFile opts).data =
      opts.foldl ArrayBounds.applyDataLine ip.data := by
  unfold InputParameter.ReadInputParameterFromFile
  induction opts generalizing ip with
  | nil => rfl
  | cons o opts ih => exact ih (ip.applyLine o)

/-- Reading the lines of the configuration file. -/
theorem CacheRow.foldl_readLine_data (a : ConfigArgs) (s : ConfigReader) :
    (((w.configLines a).map ConfigLine.text).foldl (fun s l => ConfigReader.readLine l s)
      s).ip.data = w.readBack := by
  obtain ⟨args, hargs, hkeep⟩ := a.reads
  obtain ⟨tags, htags, hkeep'⟩ := w.reads_tagLines
  have hall : List.Forall₂ Reads (w.configLines a)
      (args ++ (w.dataArrayOptions ++ (tags ++ w.dataWireOptions))) :=
    List.rel_append hargs (List.rel_append w.reads_dataArrayLines
      (List.rel_append htags w.reads_dataWireLines))
  have hparse : ((w.configLines a).map ConfigLine.text).map parseLine =
      (args ++ (w.dataArrayOptions ++ (tags ++ w.dataWireOptions))).map some := by
    rw [List.map_map]
    exact List.forall₂_eq_eq_eq ▸ (List.forall₂_map_left_iff.mpr
      (List.forall₂_map_right_iff.mpr hall))
  rw [foldl_readLine_ip hparse, InputParameter.read_data, List.foldl_append,
    List.foldl_append, List.foldl_append, foldl_keepsData hkeep, foldl_keepsData hkeep']
  exact w.foldl_dataOptions _

/-! ## The file -/

def unlines (ls : List (List Char)) : List Char := ls.flatMap fun l => l ++ ['\n']

/-- The configuration file the scripts write for the row. -/
def CacheRow.configFile (a : ConfigArgs) : Option (List Char) :=
  w.printed.line.bind fun line =>
    (generate_destiny_configs (layout_from_row
      (reader.row (printCsvHeader g.inputParameter.ip.designTarget) line) []) a false false).map
      unlines

theorem newline_not_mem_integer (n : ℤ) : '\n' ∉ integer n :=
  fun h => absurd (isNumeral_of_mem_integer h) (by decide)

theorem newline_not_mem_counts (a b c d : ℤ) : '\n' ∉ counts a b c d := by
  simp only [counts, List.mem_append, not_or]
  exact ⟨newline_not_mem_integer a, by decide, newline_not_mem_integer b, by decide,
    newline_not_mem_integer c, by decide, newline_not_mem_integer d⟩

theorem IsWord.newline_not_mem {v : List Char} (h : IsWord v) : '\n' ∉ v :=
  fun hmem => absurd (h.2 _ hmem) (by decide)

theorem CacheRow.newline_not_mem (a : ConfigArgs) : ∀ l ∈ w.configLines a, '\n' ∉ l.2 := by
  have hint (n : ℤ) := newline_not_mem_integer n
  have htype (t : WireType) := (isWord_wireType t).newline_not_mem
  have hrepeater (t : WireRepeaterType) := (isWord_repeater t).newline_not_mem
  have hswing (b : Bool) := (isWord_yesOrNo b).newline_not_mem
  have hbuffer (t : BufferDesignTarget) := (isWord_bufferLevel t).newline_not_mem
  have hyes : '\n' ∉ "Yes".toList := by decide
  simp only [CacheRow.configLines, ConfigArgs.configLines, CacheRow.dataArrayLines,
    CacheRow.tagLines, CacheRow.dataWireLines, List.cons_append, List.nil_append,
    List.forall_mem_cons, hint, htype, hrepeater, hswing, hbuffer, hyes, a.opt_target.not_newline,
    a.roadmap.not_newline, a.cell_file.not_newline, newline_not_mem_counts, not_false_eq_true,
    true_and, List.not_mem_nil, false_implies, implies_true]

theorem CacheRow.fetchedLines_eq (a : ConfigArgs) :
    fetchedLines (unlines ((w.configLines a).map ConfigLine.text)) =
      (w.configLines a).map ConfigLine.text := by
  refine fetchedLines_unlines fun l hl => ?_
  obtain ⟨⟨o, r⟩, hmem, rfl⟩ := List.mem_map.mp hl
  obtain ⟨-, -, hhead, hnewline⟩ := o.label_shape
  obtain ⟨t, ht⟩ := List.head?_eq_some_iff.mp hhead
  refine ⟨?_, '-', t ++ r, ?_, by decide⟩
  · rw [ConfigLine.text, List.mem_append, not_or]
    exact ⟨hnewline, w.newline_not_mem a _ hmem⟩
  · rw [ConfigLine.text, ht]
    rfl

/-- The file comes about, and reading it, whatever the parameters were before,
    ends with every bound of the data array pinned to the design of the row. -/
def CacheRow.RoundTrips (a : ConfigArgs) : Prop :=
  ∃ file, w.configFile reader a = some file ∧
    ∀ (buffer : List Char) (s : ConfigReader), ∃ rounds s',
      ConfigReader.ReadInputParameterFromFile rounds file buffer s = some s' ∧
        s'.ip.data = w.data.pinned

theorem CacheRow.configFile_eq (a : ConfigArgs) :
    w.configFile reader a = some (unlines ((w.configLines a).map ConfigLine.text)) := by
  obtain ⟨line, hline, -⟩ := Option.map_eq_some_iff.mp w.printed.splitOn_line
  rw [CacheRow.configFile, hline, Option.bind_some, w.layout_from_row_eq reader hline,
    w.generate_destiny_configs_eq, Option.map_some]

/-- What the reader finds in the file. -/
theorem CacheRow.read_configFile (a : ConfigArgs) (buffer : List Char) (s : ConfigReader) :
    ∃ rounds s', ConfigReader.ReadInputParameterFromFile rounds
        (unlines ((w.configLines a).map ConfigLine.text)) buffer s = some s' ∧
      s'.ip.data = w.readBack := by
  have hhead : (unlines ((w.configLines a).map ConfigLine.text)).head? ≠ some '\n' := by
    intro h
    cases h
  obtain ⟨rounds, hrun⟩ := lineLoop_ends ConfigReader.readLine hhead buffer s
  rw [w.fetchedLines_eq a] at hrun
  exact ⟨rounds, _, hrun, w.foldl_readLine_data a s⟩

theorem CacheRow.roundTrips_iff_readBack (a : ConfigArgs) :
    w.RoundTrips reader a ↔ w.readBack = w.data.pinned := by
  constructor
  · rintro ⟨file, hfile, hread⟩
    obtain rfl := Option.some.inj ((w.configFile_eq reader a).symm.trans hfile)
    obtain ⟨rounds, s', hrun, hdata⟩ := hread [] default
    obtain ⟨rounds', s'', hrun', hdata'⟩ := w.read_configFile a [] default
    rw [← hdata', ← hdata, lineLoop_unique hrun hrun']
  · intro h
    refine ⟨_, w.configFile_eq reader a, fun buffer s => ?_⟩
    obtain ⟨rounds, s', hrun, hdata⟩ := w.read_configFile a buffer s
    exact ⟨rounds, s', hrun, hdata.trans h⟩

/-- The layout survives exactly when all subarrays are active and neither wire has
    repeaters with overhead. -/
theorem layout_round_trip_iff (a : ConfigArgs) :
    w.RoundTrips reader a ↔
      (w.data.bank.geometry.numActiveSubarrayPerRow = w.data.bank.geometry.numColumnSubarray ∧
        w.data.bank.geometry.numActiveSubarrayPerColumn = w.data.bank.geometry.numRowSubarray) ∧
      (w.data.localWire.wireRepeaterType = .repeated_none ∨
        w.data.localWire.wireRepeaterType = .repeated_opt) ∧
      (w.data.globalWire.wireRepeaterType = .repeated_none ∨
        w.data.globalWire.wireRepeaterType = .repeated_opt) := by
  rw [w.roundTrips_iff_readBack, ← written_eq_iff, ← written_eq_iff]
  simp only [CacheRow.readBack, ReportedResult.pinned, Range.pin, ArrayBounds.mk.injEq,
    Range.mk.injEq, w.activeMatPerRow, w.activeMatPerColumn, and_self, true_and, and_true]
  tauto

end

end

/-! ## A layout that is lost -/

/-- Integers are integers, special words missing values, the rest text. -/
def CsvReader.plain : CsvReader where
  value field :=
    match scanInt field with
    | some (n, []) => .int n
    | _ => if specialWords.contains field then .nan else .text field
  value_integer n := by
    have h : scanInt (integer n ++ []) = some (n, []) := scanInt_integer n (by simp)
    rw [List.append_nil] at h
    rw [h]
  value_prose {field} h := by
    obtain ⟨hhead, hspecial⟩ := Bool.and_eq_true_iff.mp h
    cases field with
    | nil => cases hhead
    | cons c field =>
        rw [scanInt_of_isAlpha hhead]
        simpa using hspecial

/-- A cache with an SRAM cell. -/
def sramCache : CsvGlobals where
  inputParameter :=
    { (default : ConfigReader) with
      ip := { (default : InputParameter) with
        designTarget := .cache, capacity := 65536, wordWidth := 512, associativity := 4 }
      processNode := 32
      temperature := 350 }
  cell := { (default : MemCell ℚ) with memCellType := .SRAM, area := 146 }
  featureSize := 32 / 10 ^ 9
  modelled := by decide

/-- A design of 2 by 2 mats, all active, of 2 by 2 subarrays. -/
def designOf (memoryType : MemoryType) (active : ℤ) (repeaters : WireRepeaterType) :
    ReportedResult :=
  { (default : ReportedResult) with
    bank := { (default : ReportedBank) with
      memoryType := memoryType
      geometry := { (default : Geometry) with
        numRowMat := 2
        numColumnMat := 2
        stackedDieCount := 1
        numActiveMatPerRow := 2
        numActiveMatPerColumn := 2
        numRowSubarray := 2
        numColumnSubarray := 2
        numActiveSubarrayPerRow := active
        numActiveSubarrayPerColumn := active
        muxSenseAmp := 1
        muxOutputLev1 := 1
        muxOutputLev2 := 1
        numRowPerSet := 1 } }
    localWire := ⟨.local_aggressive, .repeated_none, false⟩
    globalWire := ⟨.semi_aggressive, repeaters, false⟩ }

/-- The row of such a design, with a tag array of the same shape. -/
def rowOf (active : ℤ) (repeaters : WireRepeaterType) : CacheRow sramCache where
  data := designOf .data active repeaters
  tag := designOf .tag 2 .repeated_none
  mode := .normal_access_mode
  isCache := rfl
  isData := rfl
  isTag := rfl
  activeMatPerRow := rfl
  activeMatPerColumn := rfl

def sramCacheArgs : ConfigArgs where
  opt_target := ⟨"ReadLatency".toList, by decide, by decide⟩
  cap_kb := 64
  ww := 512
  assoc := 4
  stack := 1
  temp := 350
  roadmap := ⟨"LSTP".toList, by decide, by decide⟩
  cell_file := ⟨"/tmp/rank1_opt.cell".toList, by decide, by decide⟩
  node := 32

/-- Global wires with repeaters of 10% overhead come back without repeaters, and a mat
    with half of its subarrays active as one of half the size. -/
theorem layout_lost :
    ((rowOf 2 .repeated_10).readBack.globalWireRepeaterType = .pin .repeated_none ∧
      ¬ (rowOf 2 .repeated_10).RoundTrips .plain sramCacheArgs) ∧
    ((rowOf 1 .repeated_none).readBack.numRowSubarray = .pin 1 ∧
      ¬ (rowOf 1 .repeated_none).RoundTrips .plain sramCacheArgs) := by
  refine ⟨⟨rfl, ?_⟩, rfl, ?_⟩
  · rw [CacheRow.roundTrips_iff_readBack]
    decide
  · rw [CacheRow.roundTrips_iff_readBack]
    decide

end Destiny
