import Longform.Manuscript
import Longform.Text.CaseFold

/-!
# Templates

A template is LaTeX with placeholders: `$key$` stands for the value of a key in
the front matter, and `$body$`, `$abstract$` and `$appendix$` for the regions of
a manuscript. The case of a placeholder does not count, and values are put in as
they are.

One failure is left out. A key is searched for as a pattern, and that of a key with
hundreds of thousands of characters is refused for its size (`Pattern.maxSize` is the
bound for patterns), so that the template is not filled and the failure is
`Error.template`. Here a key of any length is searched for, and `fill` has a text for
every template and manuscript.

`substitute_of_notMem`: a template without dollar signs stays as it is.
-/

namespace Longform.Template

open Text

/-- What follows the placeholder of a key, when the text begins with it. -/
def afterPlaceholder? (key : List Char) : List Char → Option (List Char)
  | '$' :: s => do
    match ← afterFolded? key s with
    | '$' :: rest => some rest
    | _ => none
  | _ => none

theorem afterPlaceholder?_length {key s rest : List Char}
    (h : afterPlaceholder? key s = some rest) : rest.length < s.length := by
  unfold afterPlaceholder? at h
  split at h
  · next s =>
    simp only [Option.bind_eq_bind, Option.bind_eq_some_iff, afterFolded?] at h
    obtain ⟨t, ht, hr⟩ := h
    split at ht
    · obtain rfl := Option.some.inj ht
      split at hr
      · next r hd =>
        obtain rfl := Option.some.inj hr
        have := congrArg List.length hd
        simp only [List.length_drop, List.length_cons] at this ⊢
        omega
      · simp at hr
    · simp at ht
  · simp at h

/-- Replaces every placeholder of a key by a value. What has been put in is not looked at again. -/
def substitute (key value : List Char) (s : List Char) : List Char :=
  match s with
  | [] => []
  | c :: more =>
    match _h : afterPlaceholder? key (c :: more) with
    | some rest => value ++ substitute key value rest
    | none => c :: substitute key value more
termination_by s.length
decreasing_by
  · exact afterPlaceholder?_length _h
  · simp

theorem substitute_of_notMem (key value : List Char) {s : List Char} (h : '$' ∉ s) :
    substitute key value s = s := by
  induction s with
  | nil => simp [substitute]
  | cons c s ih =>
    simp only [List.mem_cons, not_or] at h
    have hn : afterPlaceholder? key (c :: s) = none := by
      unfold afterPlaceholder?
      split
      · next heq => exact absurd (List.cons.inj heq).1.symm h.1
      · rfl
    rw [substitute]
    split
    · next hs => simp [hn] at hs
    · rw [ih h.2]

/-- The placeholders that a manuscript has values for, in the order in which they are replaced. -/
def values (m : Manuscript) : List (String × String) :=
  m.frontMatter.entries ++ [("body", m.body)]
    ++ (m.abstractText.map fun text => ("abstract", text)).toList
    ++ (m.appendix.map fun text => ("appendix", text)).toList

/-- Fills a template with a manuscript. -/
def fill (template : String) (m : Manuscript) : String :=
  (values m).foldl (fun text (key, value) =>
    String.ofList (substitute key.toList value.toList text.toList)) template

end Longform.Template
