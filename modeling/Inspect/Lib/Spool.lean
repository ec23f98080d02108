import Mathlib.Tactic

/-!
# `Lib.Spool` — files that are written one after the other

A writer is given files to write. It writes one at a time, each in pieces, and may give a file up. At any time every
file of the directory that it has begun holds the start of what it is to hold, and the files behind it are untouched.

`settled` is how many files the writer is through with, and `writing` is whether it has begun the next one.
-/

namespace Inspect

variable {K B : Type}

/-- A directory `held` that was `before`, in the middle of the writing of `files`. `whole` says that no file was given
    up. -/
structure Spooled (files : List (K × List B)) (settled : Nat) (writing : Bool) (whole : Prop)
    (before held : K → Option (List B)) : Prop where
  begun_le : settled + writing.toNat ≤ files.length
  untouched : ∀ key, key ∉ (files.take (settled + writing.toNat)).map Prod.fst → held key = before key
  starts : ∀ file ∈ files.take (settled + writing.toNat), ∀ bytes, held file.1 = some bytes → bytes <+: file.2
  complete : whole → ∀ file ∈ files.take settled, held file.1 = some file.2

namespace Spooled

variable {files : List (K × List B)} {settled : Nat} {writing : Bool} {whole : Prop}
  {before held : K → Option (List B)} {file : K × List B}

/-! ## Distinct names -/

/-- A file that is begun later has a name of its own. -/
theorem name_notMem_take (hnames : (files.map Prod.fst).Nodup) (hfile : files[settled]? = some file) :
    file.1 ∉ (files.take settled).map Prod.fst := by
  obtain ⟨hlt, hget⟩ := List.getElem?_eq_some_iff.mp hfile
  intro hmem
  have hsplit : (files.map Prod.fst).take settled ++ (files.map Prod.fst).drop settled = files.map Prod.fst :=
    List.take_append_drop _ _
  rw [← hsplit] at hnames
  rw [List.map_take] at hmem
  have hdrop : file.1 ∈ (files.map Prod.fst).drop settled := by
    rw [List.drop_eq_getElem_cons (by rwa [List.length_map]), List.getElem_map, hget]
    exact List.mem_cons_self
  exact (List.nodup_append.mp hnames).2.2 _ hmem _ hdrop rfl

theorem take_succ_eq (hfile : files[settled]? = some file) :
    files.take (settled + true.toNat) = files.take settled ++ [file] := by
  show files.take (settled + 1) = _
  rw [List.take_add_one, hfile]
  rfl

/-! ## What a writer does -/

/-- A writer that has nothing to write yet. -/
theorem start (files : List (K × List B)) (whole : Prop) (before : K → Option (List B)) :
    Spooled files 0 false whole before before where
  begun_le := Nat.zero_le _
  untouched _ _ := rfl
  starts _ hmem := absurd hmem List.not_mem_nil
  complete _ _ hmem := absurd hmem List.not_mem_nil

/-- Files to come do not matter. -/
theorem append (h : Spooled files settled writing whole before held) (more : List (K × List B)) :
    Spooled (files ++ more) settled writing whole before held := by
  have hbegun := h.begun_le
  have htake : (files ++ more).take (settled + writing.toNat) = files.take (settled + writing.toNat) :=
    List.take_append_of_le_length hbegun
  refine ⟨?_, ?_, ?_, ?_⟩
  · rw [List.length_append]
    omega
  · rw [htake]
    exact h.untouched
  · rw [htake]
    exact h.starts
  · rw [List.take_append_of_le_length (by omega)]
    exact h.complete

theorem mono {files' : List (K × List B)} (h : Spooled files settled writing whole before held)
    (hbegins : files <+: files') : Spooled files' settled writing whole before held := by
  obtain ⟨more, rfl⟩ := hbegins
  exact h.append more

theorem imp {whole' : Prop} (h : Spooled files settled writing whole before held) (hwhole : whole' → whole) :
    Spooled files settled writing whole' before held where
  begun_le := h.begun_le
  untouched := h.untouched
  starts := h.starts
  complete h' := h.complete (hwhole h')

/-- The writer begins a file that was not there. -/
theorem next (h : Spooled files settled false whole before held) (hfile : files[settled]? = some file)
    (hnames : (files.map Prod.fst).Nodup) (hnew : before file.1 = none) :
    Spooled files settled true whole before held := by
  obtain ⟨hlt, -⟩ := List.getElem?_eq_some_iff.mp hfile
  have hheld : held file.1 = none := by
    rw [h.untouched file.1 (name_notMem_take hnames hfile)]
    exact hnew
  refine ⟨hlt, ?_, ?_, h.complete⟩
  · intro key hkey
    rw [take_succ_eq hfile, List.map_append, List.mem_append, not_or] at hkey
    exact h.untouched key hkey.1
  · intro other hmem bytes hbytes
    rw [take_succ_eq hfile, List.mem_append, List.mem_singleton] at hmem
    rcases hmem with hmem | rfl
    · exact h.starts other hmem bytes hbytes
    · rw [hheld] at hbytes
      cases hbytes

/-- The writer is through with a file, whatever there is of it. -/
theorem giveUp (h : Spooled files settled true whole before held) :
    Spooled files (settled + 1) false False before held where
  begun_le := h.begun_le
  untouched := h.untouched
  starts := h.starts
  complete hfalse := hfalse.elim

/-- Of a directory without files of these names, only files that are to be written are found. -/
theorem mem_of_held (h : Spooled files settled writing whole before held) {key : K} (hnew : before key = none)
    {bytes : List B} (hheld : held key = some bytes) : ∃ file ∈ files, file.1 = key ∧ bytes <+: file.2 := by
  by_cases hmem : key ∈ (files.take (settled + writing.toNat)).map Prod.fst
  · obtain ⟨file, hfile, rfl⟩ := List.mem_map.mp hmem
    exact ⟨file, List.mem_of_mem_take hfile, rfl, h.starts file hfile bytes hheld⟩
  · rw [h.untouched key hmem, hnew] at hheld
    cases hheld

variable [DecidableEq K]

/-- A piece of the file that is written is put into the directory. -/
theorem put (h : Spooled files settled true whole before held) (hfile : files[settled]? = some file)
    (hnames : (files.map Prod.fst).Nodup) {bytes : List B} (hbytes : bytes <+: file.2) :
    Spooled files settled true whole before (Function.update held file.1 (some bytes)) := by
  have hother : ∀ other ∈ files.take settled, other.1 ≠ file.1 := by
    intro other hmem heq
    exact name_notMem_take hnames hfile (heq ▸ List.mem_map_of_mem hmem)
  refine ⟨h.begun_le, ?_, ?_, ?_⟩
  · intro key hkey
    have hne : key ≠ file.1 := by
      rintro rfl
      rw [take_succ_eq hfile, List.map_append, List.mem_append, not_or] at hkey
      exact hkey.2 List.mem_cons_self
    rw [Function.update_of_ne hne]
    exact h.untouched key hkey
  · intro other hmem found hfound
    rw [take_succ_eq hfile, List.mem_append, List.mem_singleton] at hmem
    rcases hmem with hmem | rfl
    · rw [Function.update_of_ne (hother other hmem)] at hfound
      exact h.starts other (by rw [take_succ_eq hfile]; exact List.mem_append_left _ hmem) found hfound
    · rw [Function.update_self] at hfound
      exact Option.some.inj hfound ▸ hbytes
  · intro hwhole other hmem
    rw [Function.update_of_ne (hother other hmem)]
    exact h.complete hwhole other hmem

/-- The file is written to its end. -/
theorem written (h : Spooled files settled true whole before held) (hfile : files[settled]? = some file)
    (hnames : (files.map Prod.fst).Nodup) :
    Spooled files (settled + 1) false whole before (Function.update held file.1 (some file.2)) := by
  have hput := h.put hfile hnames List.prefix_rfl
  refine ⟨hput.begun_le, hput.untouched, hput.starts, ?_⟩
  intro hwhole other hmem
  have htake := take_succ_eq hfile
  rw [Bool.toNat_true] at htake
  rw [htake, List.mem_append, List.mem_singleton] at hmem
  rcases hmem with hmem | rfl
  · exact hput.complete hwhole other hmem
  · exact Function.update_self ..

end Spooled

end Inspect
