import ConstructorCheck.Proofs.Hierarchy.Extension
import ConstructorCheck.Proofs.Renaming.Basic
import ConstructorCheck.Proofs.Renaming.Renumbering
/-!
# Declarations in another order

What declarations add to different classes can be added in any order: if they are accepted in one
order they are accepted in all, and the hierarchies that result differ in the numbers of the members
and constructors only. The classes themselves may have other numbers to begin with.

* `Reordered` — the same declarations for each class, in the same order for each class
* `Reordered.admissible` — what is admissible is so in any order
* `Reordered.exists_extend` — the resulting hierarchies are the same under new ids
-/

namespace ConstructorCheck

theorem ClassDecl.eq_of_unlisted {c d : ClassDecl} (hsame : c.unlisted = d.unlisted)
    (hmembers : c.members = d.members) (hconstructors : c.constructors = d.constructors) :
    c = d := by
  cases c
  cases d
  simp_all [ClassDecl.unlisted]

/-- The classes are declared, and nothing else is. -/
structure Hierarchy.Bare (g : Hierarchy) : Prop where
  members : g.members = []
  constructors : g.constructors = []
  bases : ∀ id c, g.class? id = some c → c.bases = []

theorem Hierarchy.Bare.not_directBase {g : Hierarchy} (hg : g.Bare) (a b : ClassId) :
    ¬ g.DirectBase a b := not_directBase_of_bases_eq_nil hg.bases a b

theorem Hierarchy.Bare.shallow {g : Hierarchy} (hg : g.Bare) : g.Shallow := by
  intro n a b hc
  cases hc with
  | nil => exact Nat.zero_le _
  | cons hab => exact absurd hab (hg.not_directBase _ _)

/-! On top of bare classes, all members and constructors come from the declarations. -/

theorem Hierarchy.Bare.members_eq {g h : Hierarchy} {ds : List Declaration} (hg : g.Bare)
    (hx : g.Extends ds h) :
    h.members.map memberNumbering.blank = ds.filterMap Declaration.member? := by
  have htable := hx.members
  rwa [hg.members] at htable

theorem Hierarchy.Bare.constructors_eq {g h : Hierarchy} {ds : List Declaration} (hg : g.Bare)
    (hx : g.Extends ds h) :
    h.constructors.map constructorNumbering.blank = ds.filterMap Declaration.constructor? := by
  have htable := hx.constructors
  rwa [hg.constructors] at htable

namespace Renaming

variable (ρ : Renaming)

def declaration : Declaration → Declaration
  | .newClass name span => .newClass name span
  | .implicitDefaultPoint id point => .implicitDefaultPoint (ρ.ofClass id) point
  | .base a b access span => .base (ρ.ofClass a) (ρ.ofClass b) access span
  | .member owner name t access defaultInit? span =>
    .member (ρ.ofClass owner) name (ρ.type t) access defaultInit? span
  | .constructor owner params access span =>
    .constructor (ρ.ofClass owner) (params.map ρ.param) access span

/-- A member under the new ids of the classes, still with its own id. -/
def memberContent (m : MemberDecl) : MemberDecl :=
  { m with owner := ρ.ofClass m.owner, type := ρ.type m.type }

/-- A constructor under the new ids of the classes, still with its own id. -/
def constructorContent (k : ConstructorDecl) : ConstructorDecl :=
  { k with owner := ρ.ofClass k.owner, params := k.params.map ρ.param }

/-- The same declarations for each class, and for each class in the same order. -/
structure Reordered (ds ds' : List Declaration) : Prop where
  perm : (ds.map ρ.declaration).Perm ds'
  same_order : ∀ id, (ds.filter fun d => d.owner? = some id).map ρ.declaration =
    ds'.filter fun d => d.owner? = some (ρ.ofClass id)

variable {ρ}

section Parts

variable (d : Declaration)

theorem owner?_declaration : (ρ.declaration d).owner? = d.owner?.map ρ.ofClass := by
  cases d <;> rfl

theorem owner?_declaration_eq_some_iff {id : ClassId} :
    (ρ.declaration d).owner? = some (ρ.ofClass id) ↔ d.owner? = some id := by
  rw [owner?_declaration, ← Option.map_some, (Option.map_injective ρ.ofClass.injective).eq_iff]

theorem edge?_declaration :
    (ρ.declaration d).edge? = d.edge?.map (Prod.map ρ.ofClass ρ.ofClass) := by
  cases d <;> rfl

theorem member?_declaration : (ρ.declaration d).member? = d.member?.map ρ.memberContent := by
  cases d with
  | member owner name t access defaultInit? span =>
    simp only [declaration, Declaration.member?, class?_type, Option.isSome_map]
    rfl
  | _ => rfl

theorem owner?_of_member? (d : Declaration) (m : MemberDecl) (hm : d.member? = some m) :
    d.owner? = some (memberSort.owner m) := by
  cases d <;> cases hm
  rfl

theorem owner?_of_constructor? (d : Declaration) (k : ConstructorDecl)
    (hk : d.constructor? = some k) : d.owner? = some (constructorSort.owner k) := by
  cases d <;> cases hk
  rfl

theorem constructor?_declaration :
    (ρ.declaration d).constructor? = d.constructor?.map ρ.constructorContent := by
  cases d <;> rfl

theorem onClass_declaration (id : ClassId) (c : ClassDecl) :
    Declaration.onClass (ρ.ofClass id) (ρ.classDecl c) (ρ.declaration d) =
      ρ.classDecl (Declaration.onClass id c d) := by
  cases d with
  | implicitDefaultPoint j point =>
    simp only [declaration, Declaration.onClass, ρ.ofClass.apply_eq_iff_eq]
    split
    · rfl
    · rfl
  | base a b access span =>
    simp only [declaration, Declaration.onClass, ρ.ofClass.apply_eq_iff_eq]
    split
    · simp only [classDecl, List.map_append]
      rfl
    · rfl
  | _ => rfl

end Parts

theorem defaultsTrail_map (ps : List Param) :
    defaultsTrail (ps.map ρ.param) = defaultsTrail ps := by
  rw [defaultsTrail, List.dropWhile_map, List.all_map]
  rfl

theorem onClass_of_owner?_ne {id : ClassId} {d : Declaration} (hd : d.owner? ≠ some id)
    (c : ClassDecl) : Declaration.onClass id c d = c := by
  have hne {j : ClassId} (hj : d.owner? = some j) : id ≠ j := by
    rintro rfl
    exact hd hj
  cases d with
  | implicitDefaultPoint j point => exact if_neg (hne rfl)
  | base a b access span => exact if_neg (hne rfl)
  | _ => rfl

/-- A class is changed by its own declarations only. -/
theorem foldl_onClass_eq (id : ClassId) (ds : List Declaration) (c : ClassDecl) :
    ds.foldl (Declaration.onClass id) c =
      (ds.filter fun d => d.owner? = some id).foldl (Declaration.onClass id) c := by
  rw [List.foldl_filter]
  congr 1
  funext c d
  split
  · rfl
  · next hd => exact onClass_of_owner?_ne (by simpa using hd) c

variable {g g' h h' : Hierarchy} {ds ds' : List Declaration}

theorem foldl_onClass_declaration (id : ClassId) (c : ClassDecl) :
    (ds.map ρ.declaration).foldl (Declaration.onClass (ρ.ofClass id)) (ρ.classDecl c) =
      ρ.classDecl (ds.foldl (Declaration.onClass id) c) := by
  rw [List.foldl_map]
  exact List.foldl_hom ρ.classDecl fun c d => onClass_declaration d id c

namespace Reordered

/-- What is read off one declaration at a time is the same but for its order. -/
theorem filterMap_perm {α : Type} {f : Declaration → Option α} {k : α → α}
    (hp : ρ.Reordered ds ds') (hf : ∀ d, f (ρ.declaration d) = (f d).map k) :
    ((ds.filterMap f).map k).Perm (ds'.filterMap f) := by
  have hperm := hp.perm.filterMap f
  rwa [List.filterMap_map, show f ∘ ρ.declaration = fun d => (f d).map k from funext hf,
    ← List.map_filterMap] at hperm

theorem foldl_onClass (hp : ρ.Reordered ds ds') (id : ClassId) (c : ClassDecl) :
    ds'.foldl (Declaration.onClass (ρ.ofClass id)) (ρ.classDecl c) =
      ρ.classDecl (ds.foldl (Declaration.onClass id) c) := by
  rw [foldl_onClass_eq, ← hp.same_order, foldl_onClass_declaration, ← foldl_onClass_eq]

/-- Each class has the same records, in the same order. -/
theorem map_filter_filterMap {α : Type} {f : Declaration → Option α} {k : α → α}
    {owner : α → ClassId} (hp : ρ.Reordered ds ds')
    (hf : ∀ d, f (ρ.declaration d) = (f d).map k)
    (howner : ∀ d a, f d = some a → d.owner? = some (owner a)) (id : ClassId) :
    ((ds.filterMap f).filter fun a => owner a = id).map k =
      (ds'.filterMap f).filter fun a => owner a = ρ.ofClass id := by
  have hfilter (es : List Declaration) (j : ClassId) :
      (es.filterMap f).filter (fun a => owner a = j) =
        (es.filter fun d => d.owner? = some j).filterMap f := by
    rw [List.filter_filterMap, List.filterMap_filter]
    refine List.filterMap_congr fun d _ => ?_
    cases ha : f d with
    | none => simp
    | some a => simp [howner d a ha, Option.filter]
  rw [hfilter, hfilter, ← hp.same_order, List.filterMap_map, List.map_filterMap]
  exact List.filterMap_congr fun d _ => (hf d).symm

/-! ## Admissible in any order -/

theorem fits (hr : ρ.Renames g g') {d : Declaration} (hd : g.Fits d) :
    g'.Fits (ρ.declaration d) := by
  have hclass {id : ClassId} (hc : ∃ c, g.class? id = some c) :
      ∃ c, g'.class? (ρ.ofClass id) = some c := by
    obtain ⟨c, hc⟩ := hc
    exact ⟨ρ.classDecl c, by rw [hr.class?, hc]; rfl⟩
  have htype {t : TypeRef} (ht : g.knowsType t = true) : g'.knowsType (ρ.type t) = true := by
    cases t with
    | primitive p => rfl
    | ofClass id =>
      rw [Hierarchy.knowsType_ofClass_iff] at ht
      exact Hierarchy.knowsType_ofClass_iff.2 (hclass ht)
  cases d with
  | newClass name span => exact hd
  | implicitDefaultPoint id point => exact hclass hd
  | base a b access span => exact ⟨hclass hd.1, hclass hd.2⟩
  | member owner name t access defaultInit? span => exact ⟨hclass hd.1, htype hd.2⟩
  | constructor owner params access span =>
    obtain ⟨howner, htypes, htrail⟩ := hd
    refine ⟨hclass howner, fun p hp => ?_, ?_⟩
    · obtain ⟨q, hq, rfl⟩ := List.mem_map.1 hp
      exact htype (htypes q hq)
    · rwa [defaultsTrail_map]

/-- Different tags stay different under new ids. -/
theorem tags_nodup {ι α κ : Type} {σ : RecordSort ι α κ} {f : Declaration → Option α} {k : α → α}
    {m : κ → κ} (hp : ρ.Reordered ds ds') (hf : ∀ d, f (ρ.declaration d) = (f d).map k)
    (hm : Function.Injective m) (htag : ∀ a, σ.tag (k a) = Prod.map ρ.ofClass m (σ.tag a))
    (hnodup : ((ds.filterMap f).map σ.tag).Nodup) : ((ds'.filterMap f).map σ.tag).Nodup := by
  rw [← ((hp.filterMap_perm hf).map σ.tag).nodup_iff, List.map_map,
    show σ.tag ∘ k = Prod.map ρ.ofClass m ∘ σ.tag from funext htag, ← List.map_map]
  exact hnodup.map (ρ.ofClass.injective.prodMap hm)

/-- **What is admissible is admissible in any order.** -/
theorem admissible (hp : ρ.Reordered ds ds') (hr : ρ.Renames g g') (hg : g.Bare) (hg' : g'.Bare)
    (ha : g.Admissible ds) : g'.Admissible ds' := by
  have hinjective : Function.Injective (Prod.map ρ.ofClass ρ.ofClass) :=
    ρ.ofClass.injective.prodMap ρ.ofClass.injective
  have hedges := hp.filterMap_perm edge?_declaration
  have hedge (a b : ClassId) : (ρ.ofClass a, ρ.ofClass b) ∈ ds'.filterMap Declaration.edge? ↔
      (a, b) ∈ ds.filterMap Declaration.edge? := by
    show Prod.map ρ.ofClass ρ.ofClass (a, b) ∈ _ ↔ _
    rw [← hedges.mem_iff, List.mem_map_of_injective hinjective]
  refine ⟨fun d hd => ?_, ?_, fun a b _ => hg'.not_directBase a b, fun n a b hc => ?_, ?_, ?_⟩
  · obtain ⟨e, he, rfl⟩ := List.mem_map.1 (hp.perm.mem_iff.2 hd)
    exact fits hr (ha.fits e he)
  · rw [← hedges.nodup_iff]
    exact ha.edges_nodup.map hinjective
  · -- a chain under the new ids is a chain under the old ones
    obtain ⟨a, rfl⟩ := ρ.ofClass.surjective a
    obtain ⟨b, rfl⟩ := ρ.ofClass.surjective b
    refine ha.bounded n a b ((Chain.map_equiv_iff ρ.ofClass fun x y => ?_).1 hc)
    simp only [hedge, hg.not_directBase, hg'.not_directBase, false_or]
  · have hnodup := ha.members_nodup
    rw [hg.members, List.map_nil, List.nil_append] at hnodup
    rw [hg'.members, List.map_nil, List.nil_append]
    exact hp.tags_nodup member?_declaration Function.injective_id (fun _ => rfl) hnodup
  · have hnodup := ha.constructors_nodup
    rw [hg.constructors, List.map_nil, List.nil_append] at hnodup
    rw [hg'.constructors, List.map_nil, List.nil_append]
    refine hp.tags_nodup constructor?_declaration ρ.type_injective.list_map (fun k => ?_) hnodup
    -- the types of renamed parameters are the renamed types
    simp only [RecordSort.tag, constructorSort, constructorContent, Prod.map, List.map_map]
    rfl

/-! ## The same hierarchy under new ids -/

/-- Members and constructors get new numbers, and their owners list them under these. -/
theorem exists_renumbering {ι α κ : Type} {σ : RecordSort ι α κ} (ν : Numbering σ)
    {lists lists' : ClassId → Option (List ι)} {records records' : ι → Option α}
    {table table' : List α} (hp : ρ.Reordered ds ds') (ho : Owned σ lists records)
    (ho' : Owned σ lists' records') (ht : InTable σ ν.number records table)
    (ht' : InTable σ ν.number records' table') {f : Declaration → Option α} {k : α → α}
    (htable : table.map ν.blank = ds.filterMap f) (htable' : table'.map ν.blank = ds'.filterMap f)
    (hf : ∀ d, f (ρ.declaration d) = (f d).map k)
    (howner : ∀ d a, f d = some a → d.owner? = some (σ.owner a))
    (hk : ∀ a, ν.blank (k a) = k (ν.blank a))
    (hlists : ∀ c l, lists c = some l → ∃ l', lists' (ρ.ofClass c) = some l') :
    ∃ τ : ι ≃ ι, (∀ i, records' (τ i) = (records i).map fun r => ν.setId (τ i) (k r)) ∧
      ∀ c l, lists c = some l → lists' (ρ.ofClass c) = some (l.map τ) := by
  have hblank (l : List α) : l.map (fun r => ν.blank (k r)) = (l.map ν.blank).map k := by
    rw [List.map_map]
    exact List.map_congr_left fun a _ => hk a
  have howned (l : List α) (c : ClassId) : (l.filter fun r => σ.owner r = c).map ν.blank =
      (l.map ν.blank).filter fun r => σ.owner r = c := by
    have hsame (r : α) : σ.owner (ν.blank r) = σ.owner r := congrArg Prod.fst (ν.tag_blank r)
    rw [List.filter_map]
    simp only [Function.comp_def, hsame]
  refine ho.exists_renumbering ν ho' ht ht' (f := k) (e := ρ.ofClass) ?_ fun c l hl => ?_
  · rw [hblank, htable, htable']
    exact hp.filterMap_perm hf
  · obtain ⟨l', hl'⟩ := hlists c l hl
    refine ⟨l', hl', ?_⟩
    rw [ho'.filterMap_eq_filter ht' hl', ho.filterMap_eq_filter ht hl, hblank, howned, howned,
      htable, htable', hp.map_filter_filterMap hf howner]

section Extended

variable (hp : ρ.Reordered ds ds') (hr : ρ.Renames g g') (hx : g.Extends ds h)
  (hx' : g'.Extends ds' h')
include hp hr hx hx'

/-- The class records are renamed, but for what the classes own. -/
theorem unlisted_eq (id : ClassId) : (h'.class? (ρ.ofClass id)).map ClassDecl.unlisted =
    ((h.class? id).map ClassDecl.unlisted).map ρ.classDecl := by
  rw [hx'.unlisted, hx.unlisted, hr.class?, Option.map_map, Option.map_map]
  refine Option.map_congr fun c _ => ?_
  rw [Function.comp_apply, Function.comp_apply, ← hp.foldl_onClass]
  rfl

theorem exists_class? {id : ClassId} {c : ClassDecl} (hc : h.class? id = some c) :
    ∃ c', h'.class? (ρ.ofClass id) = some c' ∧ c'.unlisted = ρ.classDecl c.unlisted := by
  have hsome := hp.unlisted_eq hr hx hx' id
  rwa [hc, Option.map_some, Option.map_some, Option.map_eq_some_iff] at hsome

theorem exists_list {β : Type} (π : ClassDecl → List β) (id : ClassId) (l : List β)
    (hl : (h.class? id).map π = some l) : ∃ l', (h'.class? (ρ.ofClass id)).map π = some l' := by
  obtain ⟨c, hc, -⟩ := Option.map_eq_some_iff.1 hl
  obtain ⟨c', hc', -⟩ := hp.exists_class? hr hx hx' hc
  exact ⟨π c', by rw [hc']; rfl⟩

/-- With what they own under its new ids, the class records are renamed as a whole. -/
theorem class?_eq {ρ' : Renaming} (hclass : ρ'.ofClass = ρ.ofClass)
    (hmembers : ∀ id l, (h.class? id).map (·.members) = some l →
      (h'.class? (ρ.ofClass id)).map (·.members) = some (l.map ρ'.ofMember))
    (hconstructors : ∀ id l, (h.class? id).map (·.constructors) = some l →
      (h'.class? (ρ.ofClass id)).map (·.constructors) = some (l.map ρ'.ofConstructor))
    (id : ClassId) : h'.class? (ρ'.ofClass id) = (h.class? id).map ρ'.classDecl := by
  obtain ⟨e, τ, υ⟩ := ρ'
  obtain rfl : e = ρ.ofClass := hclass
  cases hc : h.class? id with
  | none =>
    have hnone := hp.unlisted_eq hr hx hx' id
    rw [hc, Option.map_none, Option.map_none, Option.map_eq_none_iff] at hnone
    exact hnone
  | some c =>
    obtain ⟨c', hc', hsame⟩ := hp.exists_class? hr hx hx' hc
    have hm := hmembers id c.members (by rw [hc]; rfl)
    have hk := hconstructors id c.constructors (by rw [hc]; rfl)
    rw [hc', Option.map_some, Option.some.injEq] at hm hk
    rw [hc', Option.map_some, Option.some.injEq]
    exact ClassDecl.eq_of_unlisted hsame hm hk

/-- What the declarations of both orders build is the same under new ids. -/
theorem exists_renames (hg : g.Bare) (hg' : g'.Bare) (hw : h.WellFormed) (hw' : h'.WellFormed) :
    ∃ ρ' : Renaming, ρ'.Renames h h' := by
  obtain ⟨τ, hmember, hmembers⟩ := hp.exists_renumbering memberNumbering hw.owned_members
    hw'.owned_members h.inTable_members h'.inTable_members (hg.members_eq hx) (hg'.members_eq hx')
    member?_declaration owner?_of_member? (fun _ => rfl) (hp.exists_list hr hx hx' _)
  obtain ⟨υ, hconstructor, hconstructors⟩ := hp.exists_renumbering constructorNumbering
    hw.owned_constructors hw'.owned_constructors h.inTable_constructors h'.inTable_constructors
    (hg.constructors_eq hx) (hg'.constructors_eq hx') constructor?_declaration
    owner?_of_constructor? (fun _ => rfl) (hp.exists_list hr hx hx' _)
  refine ⟨⟨ρ.ofClass, τ, υ⟩, hp.class?_eq hr hx hx' rfl hmembers hconstructors, fun id => ?_,
    fun id => ?_, fun name => ?_⟩
  · refine (hmember id).trans (Option.map_congr fun m hm => ?_)
    rw [← hw.owned_members.id_eq hm]
    rfl
  · refine (hconstructor id).trans (Option.map_congr fun k hk => ?_)
    rw [← hw.owned_constructors.id_eq hk]
    rfl
  · rw [hx'.names, hx.names]
    exact hr.lookup name

end Extended

/--
**Declarations that are accepted in one order are accepted in every order, and the hierarchies are
the same under new ids.**
-/
theorem exists_extend (hp : ρ.Reordered ds ds') (hr : ρ.Renames g g') (hg : g.Bare)
    (hg' : g'.Bare) (hw : g.WellFormed) (hw' : g'.WellFormed) (hds : ∀ d ∈ ds, d.owner? ≠ none)
    (hok : g.extend ds = .ok h) :
    ∃ h', g'.extend ds' = .ok h' ∧ ∃ ρ' : Renaming, ρ'.Renames h h' := by
  have hds' : ∀ d ∈ ds', d.owner? ≠ none := by
    intro d hd
    obtain ⟨e, he, rfl⟩ := List.mem_map.1 (hp.perm.mem_iff.2 hd)
    rw [owner?_declaration, ne_eq, Option.map_eq_none_iff]
    exact hds e he
  have hadm := (Hierarchy.exists_extend_iff hw hg.shallow hds).1 ⟨h, hok⟩
  obtain ⟨h', hok'⟩ := (Hierarchy.exists_extend_iff hw' hg'.shallow hds').2
    (hp.admissible hr hg hg' hadm)
  exact ⟨h', hok', hp.exists_renames hr (.of_extend hok hds) (.of_extend hok' hds') hg hg'
    (Hierarchy.extend_wellFormed hok hw) (Hierarchy.extend_wellFormed hok' hw')⟩

end Reordered

end Renaming

end ConstructorCheck
