/-
  Destiny.Sweep.ConfigRewrite

  The configuration text `run_single_simulation` makes of a template.

  * `paramPattern`, `capacityPattern` and `cellFilePattern` are the patterns it
    substitutes; the first is tied to the start of a line, the others match
    anywhere.
  * `rewriteConfig` is the chain of substitutions and of texts appended to the end.
    `os.path.abspath` and what `re.sub` makes of backslashes in a replacement are
    those of `PythonHost`.
-/

import Destiny.Lib.TextSub
import Destiny.Lib.Python
import Destiny.Config.Reader
import Destiny.Sweep.Jobs

namespace Destiny.Sweep

open Lib

/-! ## Patterns -/

/-- A slash or a dash. -/
def isMark (c : Char) : Bool := c = '/' || c = '-'

theorem suffix_of_stripPrefix {s t r : List Char} (h : stripPrefix s t = some r) : r <:+ t :=
  ⟨s, (stripPrefix_eq_some.mp h).symm⟩

/-- `^`, any slashes and dashes, `{re.escape(param)}:` and the rest of the line -/
def paramHead (param t : List Char) : Option (List Char) :=
  stripPrefix (param ++ ":".toList) (t.dropWhile isMark)

theorem paramHead_nil (param : List Char) : paramHead param [] = none := by
  cases param <;> rfl

theorem paramHead_suffix (param t r : List Char) (h : paramHead param t = some r) : r <:+ t :=
  (suffix_of_stripPrefix h).trans (List.dropWhile_suffix _)

def paramPattern (param : List Char) : LinePattern where
  anchored := true
  head := paramHead param
  head_nil := paramHead_nil param
  head_suffix := paramHead_suffix param

/-- `-Capacity\s*\(MB\):.*`, with the unit in brackets -/
def capacityHead (unit t : List Char) : Option (List Char) :=
  (stripPrefix "-Capacity".toList t).bind fun r =>
    stripPrefix (unit ++ ":".toList) (r.dropWhile isPySpace)

theorem capacityHead_nil (unit : List Char) : capacityHead unit [] = none := rfl

theorem capacityHead_suffix (unit t r : List Char) (h : capacityHead unit t = some r) :
    r <:+ t := by
  obtain ⟨u, hu, hr⟩ := Option.bind_eq_some_iff.mp h
  exact ((suffix_of_stripPrefix hr).trans (List.dropWhile_suffix _)).trans
    (suffix_of_stripPrefix hu)

def capacityPattern (unit : List Char) : LinePattern where
  anchored := false
  head := capacityHead unit
  head_nil := capacityHead_nil unit
  head_suffix := capacityHead_suffix unit

/-- `-MemoryCellInputFile:.*` -/
def cellFileHead (t : List Char) : Option (List Char) :=
  stripPrefix "-MemoryCellInputFile:".toList t

theorem cellFileHead_nil : cellFileHead [] = none := rfl

theorem cellFileHead_suffix (t r : List Char) (h : cellFileHead t = some r) : r <:+ t :=
  suffix_of_stripPrefix h

def cellFilePattern : LinePattern where
  anchored := false
  head := cellFileHead
  head_nil := cellFileHead_nil
  head_suffix := cellFileHead_suffix

/-! ## The text of a job -/

/-- What `run_single_simulation` takes from Python: `os.path.abspath`, and the text a
    replacement stands for, none where `re.sub` raises. -/
structure PythonHost where
  abspath : List Char → List Char
  expand : List Char → Option (List Char)
  expand_plain : ∀ repl, '\\' ∉ repl → expand repl = some repl

def PythonHost.re_sub (py : PythonHost) (p : LinePattern) (repl t : List Char) :
    Option (List Char) :=
  (py.expand repl).map fun r => p.sub r t

/-- `str` of a value -/
def OverrideValue.str : OverrideValue → List Char
  | .int z => integer z
  | .text s => s

/-- `f"-{param}: {value}"` -/
def setting (param value : List Char) : List Char := '-' :: (param ++ ": ".toList ++ value)

/-- One round of the loop over the overrides. -/
def setOverride (py : PythonHost) (new_cfg : List Char) (o : List Char × OverrideValue) :
    Option (List Char) :=
  if (paramPattern o.1).search new_cfg then
    py.re_sub (paramPattern o.1) (setting o.1 o.2.str) new_cfg
  else some (new_cfg ++ '\n' :: (setting o.1 o.2.str ++ ['\n']))

/-- The lines of a forced layout. -/
def layoutSettings (l : Layout) : List (List Char) :=
  [setting "ForceMuxSenseAmp".toList (integer l.mux_sa),
   setting "ForceMuxOutputLev2".toList (integer l.mux_ol2),
   setting "ForceBank (Total AxB, Active CxD)".toList
     (integer l.amc ++ "x".toList ++ integer l.amr ++ ", ".toList ++ integer l.amc ++ "x".toList ++
       integer l.amr),
   setting "ForceMat (Total AxB, Active CxD)".toList
     (integer l.asc ++ "x".toList ++ integer l.asr ++ ", ".toList ++ integer l.asc ++ "x".toList ++
       integer l.asr)]

/-- `"\n-ForceMuxSenseAmp: ..."` and so on, with a newline at the end -/
def appendLines (new_cfg : List Char) (ls : List (List Char)) : List Char :=
  new_cfg ++ (ls.flatMap fun l => '\n' :: l) ++ ['\n']

/-- The patterns and replacements up to the loop over the overrides. -/
def rewriteBase (py : PythonHost) (a : SimulationArgs) : Option (List Char) := do
  let capacity := setting "Capacity (KB)".toList (integer a.cap_kb)
  let new_cfg ← py.re_sub (capacityPattern "(MB)".toList) capacity a.base_cfg_content
  let new_cfg ← py.re_sub (capacityPattern "(KB)".toList) capacity new_cfg
  let new_cfg ← py.re_sub cellFilePattern
    (setting "MemoryCellInputFile".toList (py.abspath a.cell_path)) new_cfg
  let new_cfg ← py.re_sub (paramPattern "OptimizationTarget".toList) [] new_cfg
  let new_cfg ← py.re_sub (paramPattern "EnablePruning".toList) [] new_cfg
  let new_cfg := appendLines new_cfg
    [setting "OptimizationTarget".toList "Full".toList, setting "EnablePruning".toList "Yes".toList]
  py.re_sub (paramPattern "DeviceRoadmap".toList) (setting "DeviceRoadmap".toList a.roadmap) new_cfg

/-- The configuration of a job, none where `re.sub` raises. -/
def rewriteConfig (py : PythonHost) (a : SimulationArgs) : Option (List Char) := do
  let new_cfg ← rewriteBase py a
  let new_cfg ← a.cfg_overrides.foldlM (setOverride py) new_cfg
  match a.layout_cfg with
  | none => some new_cfg
  | some layout => some (appendLines new_cfg (layoutSettings layout))

end Destiny.Sweep
