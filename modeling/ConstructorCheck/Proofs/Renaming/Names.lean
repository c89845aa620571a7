import ConstructorCheck.Proofs.Fixture.Requests
import ConstructorCheck.Proofs.Renaming.Check
import ConstructorCheck.Proofs.Renaming.Declarations
/-!
# Names in renamed hierarchies

A fixture speaks of classes and types by name. In a renamed hierarchy the same names lead to the
renamed classes, so what a fixture requests and what it defines is the same, renamed. When a name is
wrong, it is wrong in both hierarchies.

* `classRequests` — a class requests the same declarations
* `specDefinition` — a definition has the same parts
-/

namespace ConstructorCheck.Renaming.Renames

variable {ρ : Renaming} {f : SourceFile} {h h' : Hierarchy}

theorem namedClass (hr : ρ.Renames h h') (name : String) :
    h'.namedClass name = relabel id ρ.ofClass (h.namedClass name) := by
  simp only [Hierarchy.namedClass, Hierarchy.classByName, hr.lookup]
  cases h.names.lookup name <;> rfl

theorem namedType (hr : ρ.Renames h h') (name : String) :
    h'.namedType name = relabel id ρ.type (h.namedType name) := by
  simp only [Hierarchy.namedType]
  cases Primitive.ofKeyword? name with
  | some p => rfl
  | none =>
    rw [hr.namedClass]
    exact relabel_map fun _ => rfl

/-! Places do not depend on a hierarchy. -/

theorem bind_relabel {α β γ : Type} {k : β → γ} {x : Except ModelError α}
    {y : α → Except ModelError β} {z : α → Except ModelError γ}
    (hyz : ∀ a, z a = relabel id k (y a)) : x >>= z = relabel id k (x >>= y) := by
  cases x with
  | ok a => exact hyz a
  | error e => rfl

/-! ## Requests -/

theorem append {r s r' s' : Requests} (hr : r' = relabel id (List.map ρ.declaration) r)
    (hs : s' = relabel id (List.map ρ.declaration) s) :
    r'.append s' = relabel id (List.map ρ.declaration) (r.append s) := by
  rw [Requests.append, hr, hs]
  exact relabel_bind fun ds => relabel_bind fun es => congrArg Except.ok List.map_append.symm

theorem all {α : Type} {req req' : α → Requests}
    (hreq : ∀ a, req' a = relabel id (List.map ρ.declaration) (req a)) (l : List α) :
    Requests.all l req' = relabel id (List.map ρ.declaration) (Requests.all l req) := by
  rw [Requests.all, relabel_mapM hreq]
  exact relabel_map fun dss => List.map_flatten.symm

theorem pointRequests (ρ : Renaming) (c : ClassSpec) (owner : ClassId) :
    c.pointRequests f (ρ.ofClass owner) =
      relabel id (List.map ρ.declaration) (c.pointRequests f owner) := by
  unfold ClassSpec.pointRequests
  split
  · rfl
  · exact bind_relabel fun point => rfl

theorem baseRequests (hr : ρ.Renames h h') (owner : ClassId) (b : BaseSpec) :
    b.requests f h' (ρ.ofClass owner) =
      relabel id (List.map ρ.declaration) (b.requests f h owner) := by
  rw [BaseSpec.requests, hr.namedClass]
  exact relabel_bind fun base => bind_relabel fun span => rfl

theorem memberRequests (hr : ρ.Renames h h') (owner : ClassId) (m : MemberSpec) :
    m.requests f h' (ρ.ofClass owner) =
      relabel id (List.map ρ.declaration) (m.requests f h owner) := by
  rw [MemberSpec.requests, hr.namedType]
  exact relabel_bind fun type => bind_relabel fun span => rfl

theorem constructorRequests (hr : ρ.Renames h h') (owner : ClassId) (k : ConstructorSpec) :
    k.requests f h' (ρ.ofClass owner) =
      relabel id (List.map ρ.declaration) (k.requests f h owner) := by
  have hparam (p : ParamSpec) :
      ClassSpec.param h' p = relabel id ρ.param (ClassSpec.param h p) := by
    rw [ClassSpec.param, hr.namedType]
    exact relabel_map fun _ => rfl
  refine bind_relabel fun span => ?_
  rw [relabel_mapM hparam]
  exact relabel_bind fun params => rfl

/-- **A class requests the same under new ids.** -/
theorem classRequests (hr : ρ.Renames h h') (owner : ClassId) (c : ClassSpec) :
    c.requests f h' (ρ.ofClass owner) =
      relabel id (List.map ρ.declaration) (c.requests f h owner) :=
  append (pointRequests ρ c owner) <| append (all (hr.baseRequests owner) c.bases) <|
    append (all (hr.memberRequests owner) c.members)
      (all (hr.constructorRequests owner) c.constructors)

/-! ## Definitions -/

theorem specEntry (hr : ρ.Renames h h') (i : InitializerSpec) :
    i.entry f h' = relabel id ρ.entry (i.entry f h) := by
  rw [InitializerSpec.entry, relabel_mapM hr.namedType]
  exact relabel_bind fun arguments => bind_relabel fun span => rfl

/-- **A definition has the same parts under new ids.** -/
theorem specDefinition (hr : ρ.Renames h h') (d : DefinitionSpec) :
    d.definition f h' = relabel id ρ.definition (d.definition f h) := by
  rw [DefinitionSpec.definition, hr.namedClass]
  refine relabel_bind fun owner => bind_relabel fun bodyOpen =>
    bind_relabel fun initializerList? => ?_
  rw [relabel_mapM hr.specEntry]
  exact relabel_bind fun entries => rfl

end ConstructorCheck.Renaming.Renames
