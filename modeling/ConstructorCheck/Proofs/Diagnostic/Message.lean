import ConstructorCheck.Diagnostic.Message
import ConstructorCheck.Proofs.Text.Template
/-!
# Messages and their arguments

A message shows its arguments as they are spelled, unless an argument brings in a placeholder. In
the messages of the catalogue only the first argument can, and what it brings in gives way to the
second one.

* `Message.exists_template_eq` — the first argument of a message stands in quotes
* `Message.text_eq_fillAtOnce_iff` — when a message shows its arguments as they are spelled
* `Message.fill_spec` — the same for all templates
-/

namespace ConstructorCheck.Message

open Text

/-! ## The templates of the catalogue -/

/-- In each template the first argument stands in quotes, and no placeholder comes before it. -/
theorem exists_template_eq (m : Message) : ∃ front back,
    m.template.toList = front ++ (placeholder 0 ++ '\'' :: back) ∧ '\x7b' ∉ front ∧
      occurrences (placeholder 0) back = 0 := by
  cases m with
  | constructorIsPrivate =>
    refine ⟨"constructor '".toList, " is private within this context".toList, ?_⟩
    simp [template, placeholder, occurrences]
  | constructorIsProtected =>
    refine ⟨"constructor '".toList, " is protected within this context".toList, ?_⟩
    simp [template, placeholder, occurrences]
  | noMatchingConstructor =>
    refine ⟨"no matching constructor for initialization of '".toList,
      " with arguments (\x7b1\x7d)".toList, ?_⟩
    simp [template, placeholder, occurrences]
  | ambiguousCall =>
    refine ⟨"call to constructor of '".toList,
      " with arguments (\x7b1\x7d) is ambiguous".toList, ?_⟩
    simp [template, placeholder, occurrences]
  | noDefaultConstructor =>
    refine ⟨"no default constructor exists for '".toList,
      ", which is implicitly initialized here".toList, ?_⟩
    simp [template, placeholder, occurrences]
  | declaredHere =>
    refine ⟨"'".toList, " declared \x7b1\x7d here".toList, ?_⟩
    simp [template, placeholder, occurrences]
  | candidateConstructor =>
    refine ⟨"candidate constructor '".toList, [], ?_⟩
    simp [template, placeholder, occurrences]

/-! ## Arguments as they are spelled -/

theorem toList_text (m : Message) (args : List String) :
    (m.text args).toList = fillFrom 0 m.template.toList (args.map (·.toList)) :=
  toList_fill m.template args

/-- The occurrences of a placeholder in the first argument join those in the template. -/
theorem occurrences_fillAtOnce_template (m : Message) (a : List Char) :
    occurrences (placeholder 1) (fillAtOnce [a] m.template.toList) =
      occurrences (placeholder 1) a + occurrences (placeholder 1) m.template.toList := by
  obtain ⟨front, back, hm, hfront, hback⟩ := m.exists_template_eq
  have hquote (i : Nat) : ¬ placeholder i <+: '\'' :: back :=
    not_placeholder_prefix_cons (by decide)
  have hkeep : fillAtOnce [a] back = back :=
    fillAtOnce_of_occurrences fun i hi => Nat.lt_one_iff.1 hi ▸ hback
  have hfill : fillAtOnce [a] m.template.toList = front ++ (a ++ '\'' :: back) := by
    rw [hm, fillAtOnce_append_of_notMem hfront, fillAtOnce_placeholder_append (a := a) rfl,
      fillAtOnce_cons fun i _ => hquote i, hkeep]
  rw [hfill, hm, occurrences_append_of_notMem hfront, occurrences_append_of_notMem hfront,
    occurrences_placeholder_append, if_neg Nat.one_ne_zero, Nat.zero_add,
    occurrences_cons_of_not_begins (hquote 1),
    occurrences_append_cons (by decide) (by decide)]

/--
**A message with two arguments shows them as they are spelled** unless the first one contains the
placeholder of the second, and the second is something else.
-/
theorem text_eq_fillAtOnce_iff (m : Message) (a b : String) :
    (m.text [a, b]).toList = fillAtOnce [a.toList, b.toList] m.template.toList ↔
      occurrences (placeholder 1) a.toList = 0 ∨ placeholder 1 = b.toList := by
  have hiff := fillFrom_append_singleton_eq_iff (a := b.toList)
    (inert_singleton a.toList m.template.toList)
  rw [toList_text]
  refine hiff.trans (or_congr_left ?_)
  rw [List.length_singleton, occurrences_fillAtOnce_template]
  omega

/--
**Filling a template replaces its own placeholders and nothing else**, as long as the arguments are
inert; a single one always is. With one more argument behind inert ones it does so exactly when
these bring in no placeholder of it, or it is that placeholder. So a message with two arguments
shows them as they are spelled exactly when the first does not contain the placeholder of the
second, or the second is that placeholder.
-/
theorem fill_spec (template : String) (args : List String) (m : Message) (a b : String) :
    (Inert (args.map (·.toList)) template.toList →
      (fill template args).toList = fillAtOnce (args.map (·.toList)) template.toList ∧
      ((fill template (args ++ [b])).toList =
          fillAtOnce ((args ++ [b]).map (·.toList)) template.toList ↔
        occurrences (placeholder args.length)
            (fillAtOnce (args.map (·.toList)) template.toList) ≤
          occurrences (placeholder args.length) template.toList ∨
        placeholder args.length = b.toList)) ∧
    (fill template [a]).toList = fillAtOnce [a.toList] template.toList ∧
    ((m.text [a, b]).toList = fillAtOnce [a.toList, b.toList] m.template.toList ↔
      occurrences (placeholder 1) a.toList = 0 ∨ placeholder 1 = b.toList) := by
  refine ⟨fun hinert => ⟨?_, ?_⟩, ?_, m.text_eq_fillAtOnce_iff a b⟩
  · rw [toList_fill, fillFrom_eq_fillAtOnce hinert]
  · have hiff := fillFrom_append_singleton_eq_iff (a := b.toList) hinert
    rw [List.length_map] at hiff
    rw [toList_fill, List.map_append, List.map_singleton, hiff]
  · rw [toList_fill, List.map_singleton, fillFrom_eq_fillAtOnce (inert_singleton _ _)]

/-- Braces in the arguments stay, and so does a placeholder whose turn is over. -/
theorem fill_spec_braces :
    Inert (["\x7b", "\x7b0\x7d", "\x7d"].map (·.toList))
        "\x7b0\x7d (\x7b1\x7d) \x7b2\x7d".toList ∧
      (fill "\x7b0\x7d (\x7b1\x7d) \x7b2\x7d" ["\x7b", "\x7b0\x7d", "\x7d"]).toList =
        "\x7b (\x7b0\x7d) \x7d".toList := by
  have hinert : Inert (["\x7b", "\x7b0\x7d", "\x7d"].map (·.toList))
      "\x7b0\x7d (\x7b1\x7d) \x7b2\x7d".toList := by decide +kernel
  refine ⟨hinert, ((fill_spec _ _ noMatchingConstructor "" "").1 hinert).1.trans ?_⟩
  decide +kernel

/-- A class with the name of a placeholder is shown as the types of the arguments. -/
theorem class_name_taken_for_placeholder :
    noMatchingConstructor.text ["\x7b1\x7d", "int"] =
        "no matching constructor for initialization of 'int' with arguments (int)" ∧
      (noMatchingConstructor.text ["\x7b1\x7d", "int"]).toList ≠
        fillAtOnce ["\x7b1\x7d".toList, "int".toList] noMatchingConstructor.template.toList := by
  refine ⟨by decide +kernel, fun heq => ?_⟩
  have hcases := (text_eq_fillAtOnce_iff _ _ _).1 heq
  revert hcases
  decide +kernel

end ConstructorCheck.Message
