import ScopedAnnotations.Index.Merge

/-!
# Filing on top of what is there

Merging starts over. The annotations that are inherited are picked out of the
outer list, the inner ones are put behind them, and the whole is filed from
nothing, although the outer index has all of its own sorted already. There is
a shorter way: take the places of the outer index as they are, clear the two
that speak of a block, and file the inner annotations on top, one at a time.

The two ways lead to the same places, all of them, whether or not a look-up
asks about them (`Index.classified_merge`). The reason is that an annotation
that is left out writes nothing but a place that is cleared, and that one that
is kept writes neither of the two. This has to be seen of one annotation only
(`Classified.withoutBlock_file`), and then it does not matter how the two sorts
are mixed in the list (`Classified.withoutBlock_fileAll`).
-/

namespace ScopedAnnotations

namespace Classified

/-- The same places with nothing said of a block: the two slots that speak of
one are empty, and all else is as it was. -/
def withoutBlock (classified : Classified) : Classified :=
  { classified with blockType := none, breakType := none }

@[simp]
theorem withoutBlock_empty : empty.withoutBlock = empty := rfl

/-- **One annotation.** Clearing undoes the filing of an annotation of a block,
and does not notice the filing of any other. -/
theorem withoutBlock_file (classified : Classified) (a : Annotation) :
    (classified.file a).withoutBlock
      = if a.isBlockScoped then classified.withoutBlock else classified.withoutBlock.file a := by
  cases a <;> rfl

/-- **Clearing after filing is leaving out before filing**, in whatever order
the annotations come and whatever was filed before them. -/
theorem withoutBlock_fileAll (classified : Classified) (as : List Annotation) :
    (classified.fileAll as).withoutBlock
      = classified.withoutBlock.fileAll (as.filter fun a => !a.isBlockScoped) := by
  induction as generalizing classified with
  | nil => rfl
  | cons a as ih =>
    rw [fileAll_cons, ih, withoutBlock_file]
    by_cases h : a.isBlockScoped = true
    · rw [if_pos h, List.filter_cons_of_neg (by simp [h])]
    · rw [if_neg h, List.filter_cons_of_pos (by simp [h]), fileAll_cons]

theorem ofList_filter_not_isBlockScoped (as : List Annotation) :
    ofList (as.filter fun a => !a.isBlockScoped) = (ofList as).withoutBlock := by
  rw [ofList, ofList, withoutBlock_fileAll, withoutBlock_empty]

end Classified

namespace Index

/-- **Starting over is filing on top.** Under one scope two lists of
annotations can always be merged, and the places of the merged index are those
of the outer one, cleared of what was said of a block, with the inner
annotations filed on top from left to right. In particular it is all the same
whether the annotations of a block are left out before the outer list is filed
or the two slots that speak of one are cleared afterwards. -/
theorem classified_merge (xs ys : List Annotation) (scope : ResolutionScope) :
    (∃ merged, (build xs scope).merge (build ys scope) = .ok merged
      ∧ merged.classified = ys.foldl Classified.file (build xs scope).classified.withoutBlock)
    ∧ (build (xs.filter fun a => !a.isBlockScoped) scope).classified
      = (build xs scope).classified.withoutBlock := by
  have hleft := Classified.ofList_filter_not_isBlockScoped xs
  refine ⟨⟨_, merge_eq_ok_iff.mpr ⟨rfl, rfl⟩, ?_⟩, ?_⟩
  · show (build ((build xs scope).inherited ++ ys) scope).classified
      = (build xs scope).classified.withoutBlock.fileAll ys
    rw [classified_build, classified_build, Classified.ofList, Classified.fileAll_append, ← hleft]
    rfl
  · rw [classified_build, classified_build, hleft]

end Index

end ScopedAnnotations
