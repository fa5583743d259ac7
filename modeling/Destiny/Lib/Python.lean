/-
  Destiny.Lib.Python

  Texts and dictionaries as Python has them: `str.strip`, the lines of a file in
  text mode, and dictionaries that keep the order in which their keys came.
-/

import Mathlib.Data.List.DropRight
import Mathlib.Data.List.Nodup

namespace Destiny.Lib

/-! ## White space -/

/-- `str.isspace` of a character. -/
def isPySpace (c : Char) : Bool :=
  let n := c.toNat
  (9 ≤ n && n ≤ 13) || (28 ≤ n && n ≤ 32) || (0x2000 ≤ n && n ≤ 0x200a) ||
    [0x85, 0xa0, 0x1680, 0x2028, 0x2029, 0x202f, 0x205f, 0x3000].contains n

def lstrip (t : List Char) : List Char := t.dropWhile isPySpace

def rstrip (t : List Char) : List Char := t.rdropWhile isPySpace

def strip (t : List Char) : List Char := rstrip (lstrip t)

/-- No white space at either end. -/
structure Stripped (t : List Char) : Prop where
  left : lstrip t = t
  right : rstrip t = t

theorem Stripped.strip_eq {t : List Char} (h : Stripped t) : strip t = t := by
  rw [strip, h.left, h.right]

theorem lstrip_cons {c : Char} (hc : isPySpace c = false) (t : List Char) :
    lstrip (c :: t) = c :: t := by
  simp [lstrip, hc]

/-- What is behind a character other than white space is stripped by itself. -/
theorem rstrip_append_cons {c : Char} (hc : isPySpace c = false) (x y : List Char) :
    rstrip (x ++ c :: y) = x ++ c :: rstrip y := by
  unfold rstrip
  induction y using List.reverseRecOn with
  | nil => exact List.rdropWhile_concat_neg _ _ _ (by simp [hc])
  | append_singleton y d ih =>
      rw [← List.cons_append, ← List.append_assoc]
      cases hd : isPySpace d with
      | true => rw [List.rdropWhile_concat_pos _ _ _ hd, List.rdropWhile_concat_pos _ _ _ hd, ih]
      | false =>
          have hd' : ¬ isPySpace d = true := by simp [hd]
          rw [List.rdropWhile_concat_neg _ _ _ hd', List.rdropWhile_concat_neg _ _ _ hd',
            ← List.cons_append, List.append_assoc]

theorem stripped_of_forall {t : List Char} (h : ∀ c ∈ t, isPySpace c = false) : Stripped t := by
  constructor
  · cases t with
    | nil => rfl
    | cons c t => exact lstrip_cons (h c List.mem_cons_self) t
  · induction t using List.reverseRecOn with
    | nil => rfl
    | append_singleton t c _ => exact rstrip_append_cons (h c (by simp)) t []

theorem isPySpace_of_lstrip {t u : List Char} {c : Char} (h : lstrip t = c :: u) :
    isPySpace c = false := by
  unfold lstrip at h
  induction t with
  | nil => cases h
  | cons d t ih =>
      cases hd : isPySpace d with
      | true =>
          rw [List.dropWhile_cons_of_pos hd] at h
          exact ih h
      | false =>
          rw [List.dropWhile_cons_of_neg (by simp [hd])] at h
          rw [← (List.cons.inj h).1]
          exact hd

theorem stripped_strip (t : List Char) : Stripped (strip t) := by
  refine ⟨?_, List.rdropWhile_idempotent _ _⟩
  cases hstrip : strip t with
  | nil => rfl
  | cons c u =>
      -- the first character of `strip t` is that of `lstrip t`
      obtain ⟨rest, hrest⟩ : strip t <+: lstrip t := List.rdropWhile_prefix _ _
      rw [hstrip, List.cons_append] at hrest
      exact lstrip_cons (isPySpace_of_lstrip hrest.symm) u

theorem Stripped.strip_space_cons {t : List Char} (h : Stripped t) :
    strip (rstrip (' ' :: t)) = t := by
  cases t with
  | nil => decide
  | cons c t =>
      have hc := isPySpace_of_lstrip h.left
      have hself := rstrip_append_cons hc [] t
      rw [List.nil_append, h.right, List.nil_append] at hself
      have hright : rstrip (' ' :: c :: t) = ' ' :: c :: t := by
        rw [← List.singleton_append, rstrip_append_cons hc, ← hself]
      have hleft : lstrip (' ' :: c :: t) = lstrip (c :: t) := rfl
      rw [hright, strip, hleft, h.left, h.right]

/-! ## Lines -/

/-- The ends of lines in text mode. -/
def isNewline (c : Char) : Bool := c = '\n' || c = '\r'

/-- The lines of a file; the two characters of `\r\n` leave a blank line between
    them. -/
def textLines (file : List Char) : List (List Char) := file.splitOnP isNewline

theorem textLines_line {line : List Char} (h : ∀ c ∈ line, isNewline c = false) (rest : List Char) :
    textLines (line ++ '\n' :: rest) = line :: textLines rest :=
  List.splitOnP_append_cons_of_forall_mem h '\n' (by decide) rest

theorem isNewline_of_all {line : List Char} (h : (line.all fun c => !isNewline c) = true) :
    ∀ c ∈ line, isNewline c = false := fun c hc => by
  simpa using List.all_eq_true.mp h c hc

/-! ## Dictionaries -/

/-- A dictionary with texts as keys, in the order in which they came. -/
structure PyDict (V : Type) where
  items : List (List Char × V)
  nodup : (items.map Prod.fst).Nodup
  deriving DecidableEq

namespace PyDict
variable {V : Type}

def empty : PyDict V := ⟨[], List.nodup_nil⟩

def keys (d : PyDict V) : List (List Char) := d.items.map Prod.fst

/-- `d.get(k)` -/
def get? (d : PyDict V) (k : List Char) : Option V := d.items.lookup k

/-- `d[k] = v` on the items: in its old place, or at the end. -/
def setItem (items : List (List Char × V)) (k : List Char) (v : V) : List (List Char × V) :=
  if k ∈ items.map Prod.fst then items.map fun kv => if kv.1 = k then (k, v) else kv
  else items ++ [(k, v)]

theorem nodup_setItem {items : List (List Char × V)} (h : (items.map Prod.fst).Nodup)
    (k : List Char) (v : V) : ((setItem items k v).map Prod.fst).Nodup := by
  unfold setItem
  split_ifs with hk
  · have hkeys : (items.map fun kv => if kv.1 = k then (k, v) else kv).map Prod.fst =
        items.map Prod.fst := by
      rw [List.map_map]
      refine List.map_congr_left fun kv _ => ?_
      show (if kv.1 = k then (k, v) else kv).1 = kv.1
      split_ifs with heq
      · exact heq.symm
      · rfl
    rwa [hkeys]
  · rw [List.map_append, List.nodup_append]
    refine ⟨h, List.nodup_singleton k, fun a ha b hb => ?_⟩
    obtain rfl := List.mem_singleton.mp hb
    rintro rfl
    exact hk ha

def set (d : PyDict V) (k : List Char) (v : V) : PyDict V :=
  ⟨setItem d.items k v, nodup_setItem d.nodup k v⟩

theorem items_set_of_not_mem {d : PyDict V} {k : List Char} (hk : k ∉ d.keys) (v : V) :
    (d.set k v).items = d.items ++ [(k, v)] := if_neg hk

theorem mem_items_set {d : PyDict V} {k : List Char} {v : V} {kv : List Char × V}
    (h : kv ∈ (d.set k v).items) : kv = (k, v) ∨ kv ∈ d.items := by
  have hset : kv ∈ setItem d.items k v := h
  unfold setItem at hset
  split_ifs at hset
  · obtain ⟨kv', hmem, rfl⟩ := List.mem_map.mp hset
    split_ifs
    · exact .inl rfl
    · exact .inr hmem
  · rcases List.mem_append.mp hset with hmem | hmem
    · exact .inr hmem
    · exact .inl (List.mem_singleton.mp hmem)

theorem lookup_eq_some_iff_mem {items : List (List Char × V)}
    (hnodup : (items.map Prod.fst).Nodup) {k : List Char} {v : V} :
    items.lookup k = some v ↔ (k, v) ∈ items := by
  induction items with
  | nil => simp
  | cons kv items ih =>
      obtain ⟨k', v'⟩ := kv
      rw [List.map_cons, List.nodup_cons] at hnodup
      rw [List.lookup_cons, List.mem_cons]
      by_cases hk : k = k'
      · subst hk
        have hfresh : (k, v) ∉ items := fun hmem =>
          hnodup.1 (List.mem_map.mpr ⟨(k, v), hmem, rfl⟩)
        simp [hfresh, eq_comm]
      · have hbeq : (k == k') = false := beq_eq_false_iff_ne.mpr hk
        rw [hbeq]
        simpa [hk] using ih hnodup.2

theorem get?_eq_some_iff {d : PyDict V} {k : List Char} {v : V} :
    d.get? k = some v ↔ (k, v) ∈ d.items := lookup_eq_some_iff_mem d.nodup

end PyDict

end Destiny.Lib
