import ConstructorCheck.Fixture.Decode
import ConstructorCheck.Proofs.Fixture.Spans
/-!
# The numbers of a fixture

Lines, columns and lengths have 32 bits. Whatever else a fixture says, its places give no greater
numbers when it was read.

* `Json.Yields` — a property of all values that a decoder gives
* `Fixture.Fits` — the places of a fixture give numbers of 32 bits
* `Fixture.fits_of_decode` — fixtures that are read do
-/

namespace ConstructorCheck

namespace Json

variable {α : Type} {decode : Decoder α} {P : α → Prop} {r : Record} {field : Nat} {a : α}

/-- A property of all values that a decoder gives. -/
def Yields (P : α → Prop) (decode : Decoder α) : Prop := ∀ v a, decode v = some a → P a

theorem yields_nat? (greatest : Nat) : Yields (· ≤ greatest) (Value.nat? greatest) := by
  intro v n hn
  cases v with
  | number x =>
    obtain ⟨k, -, hn⟩ := Option.bind_eq_some_iff.1 hn
    split at hn
    · next hle =>
      cases hn
      exact hle
    · cases hn
  | _ => cases hn

theorem Yields.list? (hd : Yields P decode) : Yields (∀ a ∈ ·, P a) (Value.list? decode) := by
  intro v l hl
  cases v with
  | array items =>
    have hmap := mapM_eq_some_iff.1 hl
    intro a ha
    obtain ⟨v, -, hv⟩ := List.mem_map.1 (hmap ▸ List.mem_map.2 ⟨a, ha, rfl⟩)
    exact hd v a hv
  | _ => cases hl

namespace Record

theorem of_required (hd : Yields P decode) (ha : r.required field decode = some a) : P a := by
  obtain ⟨v, -, hv⟩ := Option.bind_eq_some_iff.1 ha
  exact hd v a hv

theorem of_defaulted (hd : Yields P decode) {default : α} (hdefault : P default)
    (ha : r.defaulted field decode default = some a) : P a := by
  unfold defaulted at ha
  split at ha
  · exact hd _ a ha
  · cases ha
    exact hdefault

theorem of_optional (hd : Yields P decode) {a? : Option α}
    (ha : r.optional field decode = some a?) : ∀ a, a? = some a → P a := by
  rintro a rfl
  unfold optional at ha
  split at ha
  · next v _ =>
    cases v with
    | null => cases ha
    | _ =>
      obtain ⟨b, hb, hba⟩ := Option.map_eq_some_iff.1 ha
      cases hba
      exact hd _ _ hb
  · split at ha <;> cases ha

end Record

end Json

open Json

/-- The numbers of a place have 32 bits. -/
structure Place.Fits (p : Place) : Prop where
  line_le : p.line ≤ maxNumber
  column_le : p.column ≤ maxNumber
  length_le : p.length ≤ maxNumber

/-- The places of a fixture give numbers of 32 bits. -/
def Fixture.Fits (fixture : Fixture) : Prop := ∀ p ∈ fixture.places, p.Fits

instance (p : Place) : Decidable p.Fits :=
  decidable_of_iff (p.line ≤ maxNumber ∧ p.column ≤ maxNumber ∧ p.length ≤ maxNumber)
    ⟨fun ⟨hline, hcolumn, hlength⟩ => ⟨hline, hcolumn, hlength⟩,
      fun ⟨hline, hcolumn, hlength⟩ => ⟨hline, hcolumn, hlength⟩⟩

instance (fixture : Fixture) : Decidable fixture.Fits :=
  inferInstanceAs (Decidable (∀ p ∈ fixture.places, p.Fits))

theorem Place.yields_decode : Yields Place.Fits Place.decode := by
  intro v p hp
  obtain ⟨r, -, hp⟩ := Option.bind_eq_some_iff.1 hp
  obtain ⟨line, hline, hp⟩ := Option.bind_eq_some_iff.1 hp
  obtain ⟨column, hcolumn, hp⟩ := Option.bind_eq_some_iff.1 hp
  obtain ⟨length, hlength, hp⟩ := Option.bind_eq_some_iff.1 hp
  cases hp
  have hnumber : Yields (· ≤ maxNumber) (Value.nat? maxNumber) := yields_nat? maxNumber
  exact ⟨Record.of_required (P := (· ≤ maxNumber)) hnumber hline,
    Record.of_required (P := (· ≤ maxNumber)) hnumber hcolumn,
    Record.of_defaulted (P := (· ≤ maxNumber)) hnumber (by decide) hlength⟩

theorem BaseSpec.yields_decode :
    Yields (fun b => ∀ p, b.place? = some p → p.Fits) BaseSpec.decode := by
  intro v b hb
  obtain ⟨r, -, hb⟩ := Option.bind_eq_some_iff.1 hb
  obtain ⟨name, -, hb⟩ := Option.bind_eq_some_iff.1 hb
  obtain ⟨access, -, hb⟩ := Option.bind_eq_some_iff.1 hb
  obtain ⟨place?, hplace, hb⟩ := Option.bind_eq_some_iff.1 hb
  cases hb
  exact Record.of_optional Place.yields_decode hplace

theorem MemberSpec.yields_decode :
    Yields (fun m => ∀ p, m.place? = some p → p.Fits) MemberSpec.decode := by
  intro v m hm
  obtain ⟨r, -, hm⟩ := Option.bind_eq_some_iff.1 hm
  obtain ⟨name, -, hm⟩ := Option.bind_eq_some_iff.1 hm
  obtain ⟨type, -, hm⟩ := Option.bind_eq_some_iff.1 hm
  obtain ⟨access, -, hm⟩ := Option.bind_eq_some_iff.1 hm
  obtain ⟨defaultInit?, -, hm⟩ := Option.bind_eq_some_iff.1 hm
  obtain ⟨place?, hplace, hm⟩ := Option.bind_eq_some_iff.1 hm
  cases hm
  exact Record.of_optional Place.yields_decode hplace

theorem ConstructorSpec.yields_decode :
    Yields (fun k => ∀ p, k.place? = some p → p.Fits) ConstructorSpec.decode := by
  intro v k hk
  obtain ⟨r, -, hk⟩ := Option.bind_eq_some_iff.1 hk
  obtain ⟨access, -, hk⟩ := Option.bind_eq_some_iff.1 hk
  obtain ⟨params, -, hk⟩ := Option.bind_eq_some_iff.1 hk
  obtain ⟨place?, hplace, hk⟩ := Option.bind_eq_some_iff.1 hk
  cases hk
  exact Record.of_optional Place.yields_decode hplace

theorem ClassSpec.yields_decode : Yields (fun c => ∀ p ∈ c.places, p.Fits) ClassSpec.decode := by
  intro v c hc
  obtain ⟨r, -, hc⟩ := Option.bind_eq_some_iff.1 hc
  obtain ⟨name, -, hc⟩ := Option.bind_eq_some_iff.1 hc
  obtain ⟨place?, hplace, hc⟩ := Option.bind_eq_some_iff.1 hc
  obtain ⟨bases, hbases, hc⟩ := Option.bind_eq_some_iff.1 hc
  obtain ⟨members, hmembers, hc⟩ := Option.bind_eq_some_iff.1 hc
  obtain ⟨constructors, hconstructors, hc⟩ := Option.bind_eq_some_iff.1 hc
  obtain ⟨point?, hpoint, hc⟩ := Option.bind_eq_some_iff.1 hc
  cases hc
  have hplace := Record.of_optional Place.yields_decode hplace
  have hpoint := Record.of_optional Place.yields_decode hpoint
  have hbases := Record.of_defaulted BaseSpec.yields_decode.list? (List.forall_mem_nil _) hbases
  have hmembers :=
    Record.of_defaulted MemberSpec.yields_decode.list? (List.forall_mem_nil _) hmembers
  have hconstructors :=
    Record.of_defaulted ConstructorSpec.yields_decode.list? (List.forall_mem_nil _) hconstructors
  intro p hp
  simp only [places, List.mem_append, Option.mem_toList, List.mem_filterMap] at hp
  rcases hp with (((hp | hp) | ⟨b, hb, hp⟩) | ⟨m, hm, hp⟩) | ⟨k, hk, hp⟩
  · exact hplace p hp
  · exact hpoint p hp
  · exact hbases b hb p hp
  · exact hmembers m hm p hp
  · exact hconstructors k hk p hp

theorem InitializerSpec.yields_decode :
    Yields (fun i => i.place.Fits) InitializerSpec.decode := by
  intro v i hi
  obtain ⟨r, -, hi⟩ := Option.bind_eq_some_iff.1 hi
  obtain ⟨name, -, hi⟩ := Option.bind_eq_some_iff.1 hi
  obtain ⟨arguments, -, hi⟩ := Option.bind_eq_some_iff.1 hi
  obtain ⟨place, hplace, hi⟩ := Option.bind_eq_some_iff.1 hi
  cases hi
  exact Record.of_required Place.yields_decode hplace

theorem DefinitionSpec.yields_decode :
    Yields (fun d => ∀ p ∈ d.places, p.Fits) DefinitionSpec.decode := by
  intro v d hd
  obtain ⟨r, -, hd⟩ := Option.bind_eq_some_iff.1 hd
  obtain ⟨className, -, hd⟩ := Option.bind_eq_some_iff.1 hd
  obtain ⟨list?, hlist, hd⟩ := Option.bind_eq_some_iff.1 hd
  obtain ⟨bodyOpen, hbody, hd⟩ := Option.bind_eq_some_iff.1 hd
  obtain ⟨initializers, hinitializers, hd⟩ := Option.bind_eq_some_iff.1 hd
  cases hd
  have hlist := Record.of_optional Place.yields_decode hlist
  have hbody := Record.of_required Place.yields_decode hbody
  have hinitializers :=
    Record.of_defaulted InitializerSpec.yields_decode.list? (List.forall_mem_nil _) hinitializers
  intro p hp
  simp only [places, List.cons_append, List.mem_cons, List.mem_append, Option.mem_toList,
    List.mem_map] at hp
  rcases hp with rfl | hp | ⟨i, hi, rfl⟩
  · exact hbody
  · exact hlist p hp
  · exact hinitializers i hi

/-- **The places of a fixture that was read give numbers of 32 bits.** -/
theorem Fixture.fits_of_decode : Yields Fixture.Fits Fixture.decode := by
  intro v fixture hf
  obtain ⟨r, -, hf⟩ := Option.bind_eq_some_iff.1 hf
  obtain ⟨description, -, hf⟩ := Option.bind_eq_some_iff.1 hf
  obtain ⟨source, -, hf⟩ := Option.bind_eq_some_iff.1 hf
  obtain ⟨options, -, hf⟩ := Option.bind_eq_some_iff.1 hf
  obtain ⟨classes, hclasses, hf⟩ := Option.bind_eq_some_iff.1 hf
  obtain ⟨definitions, hdefinitions, hf⟩ := Option.bind_eq_some_iff.1 hf
  obtain ⟨defaultConstructed, -, hf⟩ := Option.bind_eq_some_iff.1 hf
  obtain ⟨expected, -, hf⟩ := Option.bind_eq_some_iff.1 hf
  cases hf
  have hclasses := Record.of_required ClassSpec.yields_decode.list? hclasses
  have hdefinitions :=
    Record.of_defaulted DefinitionSpec.yields_decode.list? (List.forall_mem_nil _) hdefinitions
  intro p hp
  rcases List.mem_append.1 hp with hp | hp
  · obtain ⟨c, hc, hp⟩ := List.mem_flatMap.1 hp
    exact hclasses c hc p hp
  · obtain ⟨d, hd, hp⟩ := List.mem_flatMap.1 hp
    exact hdefinitions d hd p hp

end ConstructorCheck
