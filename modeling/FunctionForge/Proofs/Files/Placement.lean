import FunctionForge.Proofs.Files.Path

/-!
# Files in folders

A file stands in a folder under a name if the folder is its parent and the name its last name
(`StandsIn`).  A path that is joined with a name leads there exactly if the name has no slash in it
(`standsIn_join_iff`): a slash makes folders of what stands before it, and a path that starts with
one takes the place of the folder.
-/

namespace FunctionForge.Files.Path

/-- A file is directly in a folder, under a name. -/
structure StandsIn (folder : Path) (name : String) (file : Path) : Prop where
  parent : ∃ parent, file.parent? = some parent ∧ parent.segments = folder.segments
  name : file.fileName? = some name

/-! ### Last names -/

/-- A path that has a last name has a parent. -/
theorem isSome_parent?_of_fileName? {path : Path} {name : String}
    (h : path.fileName? = some name) : path.parent?.isSome := by
  have ht := trimmed_dropEmptyEnd path.text.toList.reverse
  generalize htext : dropEmptyEnd path.text.toList.reverse = text at ht
  cases ht with
  | empty => simp [fileName?, htext] at h
  | root => simp [fileName?, htext] at h
  | alone hne hslash =>
    rw [parent?_of_alone htext hne hslash]
    rfl
  | below hne hslash =>
    rw [parent?_of_below htext hne hslash]
    rfl

/-! ### Joining -/

/-- Without a slash, a name is one segment more. -/
theorem segments_join_of_not_mem (folder : Path) {name : String} (hslash : '/' ∉ name.toList)
    (hempty : name ≠ "") (hdot : name ≠ ".") :
    (folder.join name).segments = folder.segments ++ [name] := by
  have hcut : Text.cut '/' name = [name] := by
    rw [Text.cut, Text.pieces_of_not_mem hslash, List.map_singleton, String.ofList_toList]
  have habsolute : ¬(Path.mk name).isAbsolute = true := by
    rw [isAbsolute, beq_iff_eq]
    exact fun h => hslash (List.mem_of_head? h)
  rw [segments_join]
  by_cases hfolder : folder.segments = []
  · rw [if_pos (Or.inr hfolder), hfolder, segments_eq, hcut, segmentsOf_cons hempty]
    rfl
  · rw [if_neg (not_or.mpr ⟨habsolute, hfolder⟩), hcut, named_cons_of_ne hempty hdot, named_nil]

theorem standsIn_join_iff {folder : Path} {name : String} (hempty : name ≠ "") (hdot : name ≠ ".")
    (hdots : name ≠ "..") : StandsIn folder name (folder.join name) ↔ '/' ∉ name.toList := by
  constructor
  · exact fun h => slash_not_mem_of_fileName? h.name
  · intro hslash
    have hseg := segments_join_of_not_mem folder hslash hempty hdot
    have hroot : name ≠ "/" := by
      rintro rfl
      exact hslash (by decide)
    have hname : (folder.join name).fileName? = some name := by
      rw [fileName?_eq, hseg, properName?, List.getLast?_concat, Option.filter_some]
      simp [hroot, hdot, hdots]
    obtain ⟨parent, hparent⟩ := Option.isSome_iff_exists.mp (isSome_parent?_of_fileName? hname)
    refine ⟨⟨parent, hparent, ?_⟩, hname⟩
    -- Below the root, a parent has all segments but the last.
    have hdrop := segments_parent (folder.join name)
    have hfolder : ¬(folder.segments ++ [name] = [] ∨ folder.segments ++ [name] = ["/"]) :=
      not_or.mpr ⟨List.concat_ne_nil _ _, concat_ne_root hroot _⟩
    rwa [hparent, Option.getD_some, hseg, if_neg hfolder, List.dropLast_concat] at hdrop

end FunctionForge.Files.Path
