import Mathlib.Data.List.Nodup
import Mathlib.Data.List.Perm.Basic

/-!
# `Lib.KeyedTable` — tables with a primary key

A table is the list of its rows; their keys are unique. `upsert` is `INSERT … ON CONFLICT (key) DO UPDATE` of all
columns, `insert` is `INSERT`, which fails if the key is there, and `deleteWhere` is `DELETE … WHERE`. Each is known by
what it does to every row. A table mirrors a list of values if a column holds their texts, each as often as it is one.
-/

namespace Inspect

/-- **What is left to the other rows.** Some rows have the texts of some values. All rows have the texts of all values
    exactly if the other rows have those of the values that are left. -/
theorem map_perm_iff {R V T : Type} {column : R → T} {text : V → T} {rows own others : List R}
    {values mine left : List V} (hrows : rows.Perm (own ++ others)) (hvalues : values.Perm (mine ++ left))
    (hown : own.map column = mine.map text) :
    (rows.map column).Perm (values.map text) ↔ (others.map column).Perm (left.map text) := by
  have hall := hrows.map column
  have hall' := hvalues.map text
  rw [List.map_append] at hall hall'
  rw [hown] at hall
  constructor
  · intro h
    exact (List.perm_append_left_iff _).mp (hall.symm.trans (h.trans hall'))
  · intro h
    exact hall.trans (((List.perm_append_left_iff _).mpr h).trans hall'.symm)

/-- The values that are in a list without repetitions, and those that are not. -/
theorem perm_append_filter {V : Type} [BEq V] [LawfulBEq V] {values mine : List V} (hvalues : values.Nodup)
    (hmine : mine.Nodup) (hsub : mine ⊆ values) :
    values.Perm (mine ++ values.filter fun value => !mine.contains value) := by
  have hfilter : ∀ value, value ∈ (values.filter fun value => !mine.contains value)
      ↔ value ∈ values ∧ value ∉ mine := by simp
  rw [List.perm_ext_iff_of_nodup hvalues]
  · intro value
    rw [List.mem_append, hfilter]
    by_cases hmem : value ∈ mine
    · exact ⟨fun _ => Or.inl hmem, fun _ => hsub hmem⟩
    · exact ⟨fun h => Or.inr ⟨h, hmem⟩, fun h => (h.resolve_left hmem).1⟩
  · refine List.nodup_append.mpr ⟨hmine, hvalues.filter _, ?_⟩
    rintro value hvalue _ hother rfl
    exact ((hfilter value).mp hother).2 hvalue

/-- The rows of a table, with unique keys. -/
structure KeyedTable {R K : Type} (key : R → K) where
  rows : List R
  keys : (rows.map key).Nodup

namespace KeyedTable

variable {R K : Type} {key : R → K}

def empty : KeyedTable key := ⟨[], List.nodup_nil⟩

/-- A key determines its row. -/
theorem eq_of_key (table : KeyedTable key) {row row' : R} (hrow : row ∈ table.rows) (hrow' : row' ∈ table.rows)
    (hkey : key row = key row') : row = row' :=
  List.inj_on_of_nodup_map table.keys hrow hrow' hkey

/-- Delete the rows with a property. -/
def deleteWhere (table : KeyedTable key) (p : R → Bool) : KeyedTable key :=
  ⟨table.rows.filter fun row => !p row, table.keys.sublist (List.filter_sublist.map key)⟩

theorem mem_deleteWhere {table : KeyedTable key} {p : R → Bool} {row : R} :
    row ∈ (table.deleteWhere p).rows ↔ row ∈ table.rows ∧ p row = false := by
  show row ∈ table.rows.filter _ ↔ _
  rw [List.mem_filter, Bool.not_eq_true']

section Upsert

variable [DecidableEq K]

variable (key) in
/-- Put the row in the place of the row with its key, or at the end. -/
def upsertRow (row : R) : List R → List R
  | [] => [row]
  | other :: rows => if key other = key row then row :: rows else other :: upsertRow row rows

theorem keys_upsertRow (row : R) (rows : List R) :
    (upsertRow key row rows).map key
      = if key row ∈ rows.map key then rows.map key else rows.map key ++ [key row] := by
  induction rows with
  | nil => rfl
  | cons other rows ih =>
      rw [upsertRow]
      by_cases hkey : key other = key row
      · rw [if_pos hkey, if_pos (by simp [hkey]), List.map_cons, List.map_cons, hkey]
      · rw [if_neg hkey, List.map_cons, ih]
        by_cases hmem : key row ∈ rows.map key
        · rw [if_pos hmem, if_pos (by simpa using Or.inr (by simpa using hmem)), List.map_cons]
        · have hnot : key row ∉ (other :: rows).map key := by
            rw [List.map_cons, List.mem_cons, not_or]
            exact ⟨Ne.symm hkey, hmem⟩
          rw [if_neg hmem, if_neg hnot, List.map_cons, List.cons_append]

/-- Insert a row, or update the row with its key. -/
def upsert (table : KeyedTable key) (row : R) : KeyedTable key :=
  ⟨upsertRow key row table.rows, by
    rw [keys_upsertRow]
    split
    · exact table.keys
    · rename_i hnot
      exact List.Nodup.append table.keys (List.nodup_singleton _) (by simpa using hnot)⟩

/-- **An upsert changes the row of its key only.** -/
theorem mem_upsert {table : KeyedTable key} {row other : R} :
    other ∈ (table.upsert row).rows ↔ other = row ∨ (other ∈ table.rows ∧ key other ≠ key row) := by
  obtain ⟨rows, hkeys⟩ := table
  show other ∈ upsertRow key row rows ↔ other = row ∨ (other ∈ rows ∧ key other ≠ key row)
  induction rows with
  | nil => simp [upsertRow]
  | cons first rows ih =>
      rw [List.map_cons, List.nodup_cons] at hkeys
      rw [upsertRow]
      by_cases hkey : key first = key row
      · -- no further row has the key
        have hrest : ∀ other ∈ rows, key other ≠ key row := by
          intro other hother heq
          exact hkeys.1 (hkey ▸ heq ▸ List.mem_map_of_mem hother)
        rw [if_pos hkey, List.mem_cons, List.mem_cons]
        constructor
        · rintro (rfl | hother)
          · exact Or.inl rfl
          · exact Or.inr ⟨Or.inr hother, hrest other hother⟩
        · rintro (rfl | ⟨rfl | hother, hne⟩)
          · exact Or.inl rfl
          · exact absurd hkey hne
          · exact Or.inr hother
      · rw [if_neg hkey, List.mem_cons, List.mem_cons, ih hkeys.2]
        constructor
        · rintro (rfl | rfl | ⟨hother, hne⟩)
          · exact Or.inr ⟨Or.inl rfl, hkey⟩
          · exact Or.inl rfl
          · exact Or.inr ⟨Or.inr hother, hne⟩
        · rintro (rfl | ⟨rfl | hother, hne⟩)
          · exact Or.inr (Or.inl rfl)
          · exact Or.inl rfl
          · exact Or.inr (Or.inr ⟨hother, hne⟩)

end Upsert

section Insert

variable [DecidableEq K]

/-- Add a row at the end, unless its key is there. -/
def insert (table : KeyedTable key) (row : R) : KeyedTable key :=
  if h : key row ∈ table.rows.map key then table
  else ⟨table.rows ++ [row], by
    rw [List.map_append]
    exact List.Nodup.append table.keys (List.nodup_singleton _) (by simpa using h)⟩

/-- A row with a new key is added. -/
theorem insert_rows {table : KeyedTable key} {row : R} (h : key row ∉ table.rows.map key) :
    (table.insert row).rows = table.rows ++ [row] := by
  unfold insert
  rw [dif_neg h]

/-- **Rows with different new keys are all added, in order.** -/
theorem insertAll_rows {table : KeyedTable key} {rows : List R} (h : ((table.rows ++ rows).map key).Nodup) :
    (rows.foldl insert table).rows = table.rows ++ rows := by
  induction rows generalizing table with
  | nil => simp
  | cons row rows ih =>
      have hnew : key row ∉ table.rows.map key := by
        rw [List.map_append, List.map_cons] at h
        intro hmem
        exact (List.nodup_append.mp h).2.2 _ hmem _ List.mem_cons_self rfl
      have hinsert := insert_rows hnew
      rw [List.foldl_cons, ih (by rwa [hinsert, List.append_assoc]), hinsert, List.append_assoc]
      rfl

/-- The row of a key. -/
def find? (table : KeyedTable key) (k : K) : Option R := table.rows.find? fun row => key row = k

end Insert

end KeyedTable

end Inspect
