import ConstructorCheck.Log.Directives
import Mathlib.Data.List.DropRight
/-!
# Directives written out

The words for several directives are written out piece by piece. What comes out needs no writing out
any more: its pieces are directives, and none of them is such a word.

* `shorthand?_eq_none_iff` — which words stand for directives
* `directives_append` — a comma separates two lists of directives
* `directives_intercalate` — directives that are put together with commas are found again
* `directives_expand` — the directives of a list that is written out
* `expand_spec` — writing out twice, writing out two lists one after the other, and what is in a
  list that is written out

A word stands for a text that may hold commas, so the result is cut into other pieces than the list
was. It is cut where directives were put together, since no directive holds a comma.
-/

namespace ConstructorCheck

namespace Text

/-- Trimming once is enough. -/
theorem trim_trim (t : List Char) : trim (trim t) = trim t := by
  have hhead : (trim t).dropWhile isBlank = trim t := by
    cases htrim : trim t with
    | nil => rfl
    | cons c r =>
      -- the first character that is kept is the first one that is not blank
      obtain ⟨s, hs⟩ := List.rdropWhile_prefix isBlank (t.dropWhile isBlank)
      have hc := List.head?_dropWhile_not isBlank t
      rw [← hs, show (t.dropWhile isBlank).rdropWhile isBlank = c :: r from htrim] at hc
      exact List.dropWhile_cons_of_neg (by simpa using hc)
  calc trim (trim t)
      = (trim t).rdropWhile isBlank := congrArg (List.rdropWhile isBlank) hhead
    _ = trim t := List.rdropWhile_idempotent isBlank _

/-- Trimming adds no characters. -/
theorem trim_sublist (t : List Char) : (trim t).Sublist t :=
  (List.rdropWhile_prefix isBlank (t.dropWhile isBlank)).sublist.trans
    (List.dropWhile_suffix isBlank).sublist

/-- The pieces of a text do not hold the character that it is cut at. -/
theorem notMem_of_mem_splitOn {t p : List Char} {c : Char} (hp : p ∈ t.splitOn c) : c ∉ p := by
  induction t generalizing p with
  | nil =>
    rw [List.splitOn_nil, List.mem_singleton] at hp
    exact hp ▸ List.not_mem_nil
  | cons d r ih =>
    rw [List.splitOn_cons_eq_if_modifyHead] at hp
    split at hp
    · rcases List.mem_cons.1 hp with rfl | hp
      · exact List.not_mem_nil
      · exact ih hp
    · next hd =>
      obtain ⟨q, qs, hqs⟩ := List.exists_cons_of_ne_nil (List.splitOn_ne_nil c r)
      rw [hqs, List.modifyHead_cons] at hp
      rcases List.mem_cons.1 hp with rfl | hp
      · rw [List.mem_cons, not_or]
        exact ⟨fun hcd => hd (by simp [hcd]), ih (hqs ▸ List.mem_cons_self)⟩
      · exact ih (hqs ▸ List.mem_cons_of_mem q hp)

end Text

namespace Log

open Text

variable {v d e : String} {ds : List String}

/-- **The words that stand for directives** are the five levels and three others. -/
theorem shorthand?_eq_none_iff : shorthand? d = none ↔
    d ∉ ["error", "warn", "info", "debug", "trace", "sites", "overload", "hierarchy"] := by
  simp [shorthand?, levels, ite_eq_iff, and_assoc]

/-- The pieces of a list of directives, between its commas. -/
def pieces (v : String) : List (List Char) := v.toList.splitOn ','

/-- A directive as it stands in a list: not empty, without blanks around it and without commas. -/
structure IsDirective (d : String) : Prop where
  nonempty : d ≠ ""
  trimmed : trim d.toList = d.toList
  comma_notMem : ',' ∉ d.toList

instance (d : String) : Decidable (IsDirective d) :=
  decidable_of_iff (d ≠ "" ∧ trim d.toList = d.toList ∧ ',' ∉ d.toList)
    ⟨fun h => ⟨h.1, h.2.1, h.2.2⟩, fun h => ⟨h.nonempty, h.trimmed, h.comma_notMem⟩⟩

/-- A directive that stands for itself. -/
def Settled (d : String) : Prop := IsDirective d ∧ shorthand? d = none

instance (d : String) : Decidable (Settled d) := inferInstanceAs (Decidable (_ ∧ _))

/-! ## The directives of a list -/

theorem isDirective_of_mem_directives (hd : d ∈ directives v) : IsDirective d := by
  obtain ⟨t, ht, rfl⟩ := List.mem_map.1 hd
  obtain ⟨ht, hne⟩ := List.mem_filter.1 ht
  obtain ⟨p, hp, rfl⟩ := List.mem_map.1 ht
  refine ⟨fun hempty => ?_, ?_, ?_⟩
  · rw [String.ofList_eq_empty_iff.1 hempty] at hne
    cases hne
  · rw [String.toList_ofList, trim_trim]
  · rw [String.toList_ofList]
    exact fun hmem => notMem_of_mem_splitOn hp ((trim_sublist p).subset hmem)

/-- **A comma separates two lists of directives.** -/
theorem directives_append (a b : String) :
    directives (a ++ "," ++ b) = directives a ++ directives b := by
  have hsplit : (a ++ "," ++ b).toList = a.toList ++ ',' :: b.toList := by simp
  simp only [directives, hsplit, List.splitOn_append_cons_self, List.map_append,
    List.filter_append]

/-- What is put together with commas falls into the same pieces again. -/
theorem pieces_intercalate (hds : ∀ d ∈ ds, IsDirective d) (hne : ds ≠ []) :
    pieces (",".intercalate ds) = ds.map (·.toList) := by
  rw [pieces, String.toList_intercalate]
  refine List.splitOn_intercalate ',' (fun l hl => ?_) (by simpa using hne)
  obtain ⟨d, hd, rfl⟩ := List.mem_map.1 hl
  exact (hds d hd).comma_notMem

/-- **Directives that are put together with commas are found again.** -/
theorem directives_intercalate (hds : ∀ d ∈ ds, IsDirective d) :
    directives (",".intercalate ds) = ds := by
  by_cases hne : ds = []
  · subst hne
    decide
  · have htrim : (ds.map (·.toList)).map trim = ds.map (·.toList) := by
      rw [List.map_map]
      exact List.map_congr_left fun d hd => (hds d hd).trimmed
    have hfilter : (ds.map (·.toList)).filter (fun d => !d.isEmpty) = ds.map (·.toList) := by
      rw [List.filter_eq_self]
      intro l hl
      obtain ⟨d, hd, rfl⟩ := List.mem_map.1 hl
      simpa using (hds d hd).nonempty
    have hpieces := pieces_intercalate hds hne
    rw [pieces] at hpieces
    rw [directives, hpieces, htrim, hfilter, List.map_map]
    exact (List.map_congr_left fun d _ => String.ofList_toList).trans (List.map_id _)

/-! ## Writing out -/

/-- The directives that a directive stands for, itself unless it is a word for others. -/
def writtenOut (d : String) : List String := (shorthand? d).getD [d]

theorem expand_eq (v : String) :
    expand v = ",".intercalate ((directives v).flatMap writtenOut) := rfl

theorem writtenOut_of_shorthand?_eq_none (hd : shorthand? d = none) : writtenOut d = [d] := by
  rw [writtenOut, hd, Option.getD_none]

/-- What a word stands for: some directives, which stand for themselves. -/
theorem exists_of_shorthand?_eq_some (hds : shorthand? d = some ds) :
    ds ≠ [] ∧ ∀ e ∈ ds, Settled e := by
  have hlevels : ∀ w ∈ levels, targets.map (fun t => t ++ "=" ++ w) ≠ [] ∧
      ∀ e ∈ targets.map fun t => t ++ "=" ++ w, Settled e := by
    decide +kernel
  unfold shorthand? at hds
  split at hds
  · next hlevel =>
    obtain rfl := Option.some.inj hds
    exact hlevels d (by simpa using hlevel)
  · split at hds
    · obtain rfl := Option.some.inj hds
      decide +kernel
    · split at hds
      · obtain rfl := Option.some.inj hds
        decide +kernel
      · split at hds
        · obtain rfl := Option.some.inj hds
          decide +kernel
        · cases hds

theorem writtenOut_ne_nil (d : String) : writtenOut d ≠ [] := by
  cases hd : shorthand? d with
  | none => simp [writtenOut_of_shorthand?_eq_none hd]
  | some ds =>
    rw [writtenOut, hd, Option.getD_some]
    exact (exists_of_shorthand?_eq_some hd).1

theorem flatMap_writtenOut_ne_nil (hds : ds ≠ []) : ds.flatMap writtenOut ≠ [] := by
  obtain ⟨d, ds, rfl⟩ := List.exists_cons_of_ne_nil hds
  rw [List.flatMap_cons]
  exact List.append_ne_nil_of_left_ne_nil (writtenOut_ne_nil d) _

/-- What a directive stands for stands for itself. -/
theorem settled_of_mem_writtenOut (hd : IsDirective d) (he : e ∈ writtenOut d) :
    Settled e := by
  cases hword : shorthand? d with
  | none =>
    rw [writtenOut_of_shorthand?_eq_none hword, List.mem_singleton] at he
    exact he ▸ ⟨hd, hword⟩
  | some ds =>
    rw [writtenOut, hword, Option.getD_some] at he
    exact (exists_of_shorthand?_eq_some hword).2 e he

/-- The directives of a list that is written out stand for themselves. -/
theorem settled_of_mem_flatMap (he : e ∈ (directives v).flatMap writtenOut) : Settled e := by
  obtain ⟨d, hd, he⟩ := List.mem_flatMap.1 he
  exact settled_of_mem_writtenOut (isDirective_of_mem_directives hd) he

/-- **The directives of a list that is written out**: those that its directives stand for. -/
theorem directives_expand (v : String) :
    directives (expand v) = (directives v).flatMap writtenOut :=
  directives_intercalate fun _ he => (settled_of_mem_flatMap he).1

/-- Nothing is left of a list exactly when it has no directives. -/
theorem expand_eq_empty_iff : expand v = "" ↔ directives v = [] := by
  constructor
  · intro hempty
    have hexpand := directives_expand v
    rw [hempty, show directives "" = [] by decide] at hexpand
    by_contra hne
    exact flatMap_writtenOut_ne_nil hne hexpand.symm
  · intro hnone
    rw [expand_eq, hnone, List.flatMap_nil, String.intercalate_nil]

/-- **Writing out twice is writing out once.** -/
theorem expand_expand (v : String) : expand (expand v) = expand v := by
  rw [expand_eq, directives_expand]
  have hsettled : ((directives v).flatMap writtenOut).flatMap writtenOut =
      ((directives v).flatMap writtenOut).flatMap fun e => [e] :=
    List.flatMap_congr fun e he =>
      writtenOut_of_shorthand?_eq_none (settled_of_mem_flatMap he).2
  rw [hsettled, List.flatMap_singleton', ← expand_eq]

/-- **Two lists are written out one after the other.** -/
theorem expand_append (a b : String) : expand (a ++ "," ++ b) =
    if expand a ≠ "" ∧ expand b ≠ "" then expand a ++ "," ++ expand b
    else expand a ++ expand b := by
  rw [expand_eq, directives_append, List.flatMap_append]
  by_cases ha : directives a = []
  · rw [if_neg fun h => h.1 (expand_eq_empty_iff.2 ha), expand_eq_empty_iff.2 ha, ha,
      List.flatMap_nil, List.nil_append, String.empty_append, expand_eq b]
  · by_cases hb : directives b = []
    · rw [if_neg fun h => h.2 (expand_eq_empty_iff.2 hb), expand_eq_empty_iff.2 hb, hb,
        List.flatMap_nil, List.append_nil, String.append_empty, expand_eq a]
    · rw [if_pos ⟨mt expand_eq_empty_iff.1 ha, mt expand_eq_empty_iff.1 hb⟩]
      exact String.intercalate_append_of_ne_nil (flatMap_writtenOut_ne_nil ha)
        (flatMap_writtenOut_ne_nil hb)

/-- The directives that stand for themselves are kept, in their order. -/
theorem filter_sublist_flatMap (ds : List String) :
    (ds.filter fun d => shorthand? d = none).Sublist (ds.flatMap writtenOut) := by
  induction ds with
  | nil => exact .slnil
  | cons d ds ih =>
    rw [List.flatMap_cons]
    by_cases hd : shorthand? d = none
    · rw [List.filter_cons_of_pos (by simpa using hd), writtenOut_of_shorthand?_eq_none hd]
      exact ih.cons_cons d
    · rw [List.filter_cons_of_neg (by simpa using hd)]
      exact ih.trans (List.sublist_append_right _ _)

/-- The directives of a list that stand for themselves are pieces of it, trimmed. -/
theorem map_toList_filter_directives (v : String) :
    ((directives v).filter fun d => shorthand? d = none).map (·.toList) =
      ((pieces v).map trim).filter fun p => p ≠ [] ∧ shorthand? (String.ofList p) = none := by
  have htoList : ((fun d : String => d.toList) ∘ String.ofList) = id :=
    funext fun _ => String.toList_ofList
  rw [directives, List.filter_map, List.map_map, htoList, List.map_id, List.filter_filter]
  exact List.filter_congr fun p _ => by cases p <;> simp

/-- **The pieces of a list that is written out**, if anything is left of it. -/
theorem pieces_expand (hv : directives v ≠ []) :
    pieces (expand v) = ((directives v).flatMap writtenOut).map (·.toList) :=
  pieces_intercalate (fun _ he => (settled_of_mem_flatMap he).1) (flatMap_writtenOut_ne_nil hv)

/-- Blanks of any kind are trimmed, and what a word stands for is not cut into words again. -/
example : expand " \u2003hierarchy,, rayon=warn\t," = "ctorck_hierarchy=debug,rayon=warn" := by
  decide +kernel

end Log

end ConstructorCheck
