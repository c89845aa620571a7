import Mathlib
import ConstructorCheck.Proofs.Check.Wording
import ConstructorCheck.Proofs.Fixture.Decode
import ConstructorCheck.Proofs.Report.Checked
/-!
# Reports of fixtures

What a run reports can be shown. Its diagnostics and their notes point at places that the fixture
names, or at the begin of the text; these lie between two characters and inside the text, so they
have lines and columns. Nothing overflows on the way, even with offsets of 32 bits.

* `SourceFile.SpanOf.shows` — the places of a fixture can be shown
* `Hierarchy.pointsAt_diagnostic` — where a diagnostic and its notes point
* `Fixture.run_renders` — the report of a run
-/

namespace ConstructorCheck

open Text

/-- **The places of a fixture can be shown.** -/
theorem SourceFile.SpanOf.shows {f : SourceFile} {ps : List Place} {s : Span}
    (hs : f.SpanOf ps s) (hps : ∀ p ∈ ps, p.Fits) : f.Shows s.start := by
  cases hs with
  | unknown =>
    refine ⟨isBoundary_zero f.text, ?_⟩
    rw [SourceFile.lines, show Span.unknown.start = 0 from rfl, LineMap.lineAt_zero]
    decide
  | @place p _ hp hs =>
    have hoffset := (placeSpan_eq_ok hs).2
    refine ⟨LineMap.isBoundary_offsetAt? hoffset, ?_⟩
    have hline : f.lines.lineAt s.start = p.line - 1 := LineMap.lineAt_offsetAt? hoffset
    have hle := (hps p hp).line_le
    rw [maxNumber] at hle
    rw [hline, maxOffset]
    omega

namespace Hierarchy

variable {h : Hierarchy} {fileName : Nat → String} {x : Finding} {d : Diagnostic}

/-- A diagnostic points at the place of a finding, and its notes point at constructors. -/
structure PointsAt (h : Hierarchy) (fileName : Nat → String) (x : Finding) (d : Diagnostic) :
    Prop where
  file_eq : d.file = fileName x.location.file
  start_eq : d.start = x.location.start
  notes : ∀ n ∈ d.notes, ∃ k, n.file = fileName (h.constructorSpan k).file ∧
    n.start = (h.constructorSpan k).start

/-- **The diagnostic of a finding points at its place**, and its notes at constructors. -/
theorem pointsAt_diagnostic (h : Hierarchy) (fileName : Nat → String) (related : Bool)
    (x : Finding) : h.PointsAt fileName x (h.diagnostic fileName related x) := by
  rw [diagnostic_eq]
  refine ⟨rfl, rfl, fun n hn => ?_⟩
  have hnote (m : Message) (args : List String) (k : ConstructorRef)
      (hn : n = h.constructorNote fileName m args k) :
      ∃ k, n.file = fileName (h.constructorSpan k).file ∧ n.start = (h.constructorSpan k).start :=
    ⟨k, hn ▸ rfl, hn ▸ rfl⟩
  cases related with
  | false => exact absurd hn List.not_mem_nil
  | true =>
    rcases List.mem_append.1 hn with hn | hn
    · unfold chosenNotes at hn
      split at hn
      · exact hnote _ _ _ (List.mem_singleton.1 hn)
      · exact absurd hn List.not_mem_nil
    · obtain ⟨k, -, rfl⟩ := List.mem_map.1 hn
      exact hnote _ _ k rfl

end Hierarchy

namespace Fixture

variable {fixture : Fixture} {f : SourceFile} {name : String} {o : Outcome}

/-- The reported diagnostics and their notes are about the source and point where it can be cut. -/
theorem shows_of_run [ParallelMap] (hrun : fixture.run name f = .ok o) (hfits : fixture.Fits)
    {x : Reported} (hx : x ∈ o.reported) :
    (x.diagnostic.file = f.name ∧ f.Shows x.diagnostic.start) ∧
      ∀ n ∈ x.diagnostic.notes, n.file = f.name ∧ f.Shows n.start := by
  obtain ⟨p, xs, hp, hxs, rfl⟩ := run_eq_ok_iff.1 hrun
  obtain ⟨y, hy, rfl⟩ := List.mem_map.1 hx
  have hpoints := p.hierarchy.pointsAt_diagnostic (fun _ => f.name)
    fixture.options.relatedInformation y
  refine ⟨⟨hpoints.file_eq, ?_⟩, fun n hn => ?_⟩
  · rw [SourceFile.reported, hpoints.start_eq]
    exact (spanOf_location hp hxs hy).shows hfits
  · obtain ⟨k, hfile, hstart⟩ := hpoints.notes n hn
    rw [hstart]
    exact ⟨hfile, (spanOf_constructorSpan hp k).shows hfits⟩

/--
**What a run reports can be shown.** Let the numbers of a fixture have 32 bits, as in every fixture
that is read. The diagnostics and their notes point between two characters of the source, at its end
at the latest. A reporter that knows the source makes a report of them, with colours or without; and
when the source has less than `2 ^ 32` bytes, a reporter that computes with offsets of 32 bits, and
gives up where one of them overflows, makes the same report.
-/
theorem run_renders [ParallelMap] (hrun : fixture.run name f = .ok o) (hfits : fixture.Fits)
    (hlen : byteLength f.text < 2 ^ 32) {r : Report.Reporter} (hr : r.source? f.name = some f) :
    (∀ x ∈ o.reported,
      (x.diagnostic.file = f.name ∧ isBoundary x.diagnostic.start f.text = true ∧
        x.diagnostic.start ≤ byteLength f.text) ∧
      ∀ n ∈ x.diagnostic.notes, n.file = f.name ∧ isBoundary n.start f.text = true ∧
        n.start ≤ byteLength f.text) ∧
    ∀ color, ∃ text,
      r.checkedRender? color (o.reported.map (·.diagnostic)) = some text ∧
      r.render? color (o.reported.map (·.diagnostic)) = some text := by
  have hoffsets : byteLength f.text ≤ maxOffset := Nat.le_of_lt_succ hlen
  refine ⟨fun x hx => ?_, fun color => ?_⟩
  · obtain ⟨⟨hfile, hstart⟩, hnotes⟩ := shows_of_run hrun hfits hx
    refine ⟨⟨hfile, hstart.boundary, le_of_isBoundary hstart.boundary⟩, fun n hn => ?_⟩
    obtain ⟨hfile, hstart⟩ := hnotes n hn
    exact ⟨hfile, hstart.boundary, le_of_isBoundary hstart.boundary⟩
  · refine Report.Reporter.render_of_shows color fun d hd => ?_
    obtain ⟨x, hx, rfl⟩ := List.mem_map.1 hd
    obtain ⟨⟨hfile, hstart⟩, hnotes⟩ := shows_of_run hrun hfits hx
    refine ⟨⟨f, by rw [hfile, hr], hoffsets, hstart⟩, fun n hn => ?_⟩
    obtain ⟨hfile, hstart⟩ := hnotes n hn
    exact ⟨f, by rw [hfile, hr], hoffsets, hstart⟩

/--
A text with characters of several bytes, all three line ends and a tab, places beyond the ends of
their lines, and a class that the fixture names no place for. Three findings are reported, each with
a note.
-/
theorem run_renders_accents :
    let fixture : Fixture := {
      description := "part and whole", source := "whole.cpp", options := .default
      classes := [⟨"Part", none, [], [], [⟨.privateAccess, [], some ⟨2, 2, 9⟩⟩], none⟩,
        ⟨"Whole", none, [], [⟨"part", "Part", .publicAccess, none, none⟩], [], none⟩]
      definitions := [⟨"Whole", some ⟨1, 9, 1⟩, ⟨4, 9, 1⟩, [⟨"part", [], ⟨3, 2, 4294967280⟩⟩]⟩,
        ⟨"Whole", none, ⟨4, 9, 0⟩, []⟩]
      defaultConstructed := ["Whole"], expected := [] }
    let f : SourceFile := ⟨"whole.cpp", ['é', '\r', 'é', 'é', '\r', '\n', '\t', '€', '\n', 'd']⟩
    let r : Report.Reporter := ⟨[f]⟩
    ∃ o text, fixture.run "whole" f = .ok o ∧
      o.reported.map (fun x => (x.kind, x.line, x.diagnostic.notes.length)) =
        [(.inaccessibleConstructor, 1, 1), (.inaccessibleConstructor, 3, 1),
          (.inaccessibleConstructor, 4, 1)] ∧
      r.checkedRender? false (o.reported.map (·.diagnostic)) = some text ∧
      r.render? false (o.reported.map (·.diagnostic)) = some text := by
  intro fixture f r
  have hrun : ((fixture.run "whole" f).toOption.map fun o =>
      o.reported.map fun x => (x.kind, x.line, x.diagnostic.notes.length)) =
      some [(.inaccessibleConstructor, 1, 1), (.inaccessibleConstructor, 3, 1),
        (.inaccessibleConstructor, 4, 1)] := by
    unfold fixture f
    cbv
  have hfits : fixture.Fits := by decide +kernel +zetaReduce
  have hlen : byteLength f.text < 2 ^ 32 := by decide +kernel +zetaReduce
  have hr : r.source? f.name = some f := by decide +kernel +zetaReduce
  cases ho : fixture.run "whole" f with
  | error e => rw [ho] at hrun; cases hrun
  | ok o =>
    obtain ⟨text, hchecked, hplain⟩ := (run_renders ho hfits hlen hr).2 false
    rw [ho] at hrun
    exact ⟨o, text, rfl, Option.some.inj hrun, hchecked, hplain⟩

end Fixture

end ConstructorCheck
