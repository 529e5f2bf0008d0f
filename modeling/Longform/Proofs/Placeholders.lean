import Longform.Export
import Longform.Store.Memory
import Longform.Template
import Mathlib.Data.List.Infix

/-!
# Placeholders

Placeholders are replaced key by key, so that a value is searched for the
placeholders of the keys after it.

* `Template.substitute_nil_eq_self_iff`: to take a placeholder out of a text changes
  nothing just when it does not occur there (`Template.Mentions`).
* `Template.fill_body`: a body is put into a template as what the placeholders of the
  abstract and the appendix make of it, so that it comes out as it is beside any of
  these just when it has none of their placeholders.
* `Template.fill_rewrites_body`: an inline formula can be taken for one.
-/

namespace Longform.Text

variable {lead s rest : List Char}

theorem afterFolded?_eq_some_iff :
    afterFolded? lead s = some rest ↔
      ∃ name, s = name ++ rest ∧ name.map fold = lead.map fold := by
  rw [afterFolded?]
  constructor
  · intro found
    split at found
    · next same =>
      cases found
      exact ⟨s.take lead.length, (List.take_append_drop ..).symm, eq_of_beq same⟩
    · cases found
  · rintro ⟨name, rfl, same⟩
    have length : lead.length = name.length := by
      simpa only [List.length_map] using (congrArg List.length same).symm
    rw [length, List.take_left, List.drop_left, same, if_pos (beq_self_eq_true _)]

end Longform.Text

namespace Longform.Template

open Text

variable {key value s rest before after name : List Char} {c : Char}

/-! ## Texts with placeholders -/

theorem afterPlaceholder?_eq_some_iff :
    afterPlaceholder? key s = some rest ↔
      ∃ name, s = '$' :: (name ++ '$' :: rest) ∧ name.map fold = key.map fold := by
  constructor
  · intro found
    unfold afterPlaceholder? at found
    split at found
    · obtain ⟨t, named, closed⟩ := Option.bind_eq_some_iff.1 found
      obtain ⟨name, rfl, same⟩ := afterFolded?_eq_some_iff.1 named
      split at closed
      · cases closed
        exact ⟨name, rfl, same⟩
      · cases closed
    · cases found
  · rintro ⟨name, rfl, same⟩
    have named : afterFolded? key (name ++ '$' :: rest) = some ('$' :: rest) :=
      afterFolded?_eq_some_iff.2 ⟨name, rfl, same⟩
    rw [afterPlaceholder?, named]
    rfl

/-- The placeholder of a key occurs in a text, in whatever case. -/
def Mentions (key s : List Char) : Prop :=
  ∃ before name after,
    s = before ++ '$' :: (name ++ '$' :: after) ∧ name.map fold = key.map fold

theorem mentions_cons_iff :
    Mentions key (c :: s) ↔ (∃ rest, afterPlaceholder? key (c :: s) = some rest) ∨
      Mentions key s := by
  constructor
  · rintro ⟨before, name, after, whole, same⟩
    cases before with
    | nil => exact .inl ⟨after, afterPlaceholder?_eq_some_iff.2 ⟨name, whole, same⟩⟩
    | cons d before =>
      cases whole
      exact .inr ⟨before, name, after, rfl, same⟩
  · rintro (⟨rest, found⟩ | ⟨before, name, after, rfl, same⟩)
    · obtain ⟨name, whole, same⟩ := afterPlaceholder?_eq_some_iff.1 found
      exact ⟨[], name, rest, whole, same⟩
    · exact ⟨c :: before, name, after, rfl, same⟩

theorem not_mentions_nil : ¬ Mentions key [] := by
  rintro ⟨before, name, after, whole, -⟩
  exact List.append_ne_nil_of_right_ne_nil before (List.cons_ne_nil _ _) whole.symm

/-- Whether a placeholder occurs is found by looking for it at every place. -/
theorem mentions_iff_tails :
    s.tails.any (fun t => (afterPlaceholder? key t).isSome) = true ↔ Mentions key s := by
  induction s with
  | nil => exact iff_of_false Bool.false_ne_true not_mentions_nil
  | cons c s ih =>
    rw [List.tails_cons, List.any_cons, Bool.or_eq_true, ih, mentions_cons_iff,
      Option.isSome_iff_exists]

instance (key s : List Char) : Decidable (Mentions key s) :=
  decidable_of_iff _ mentions_iff_tails

/-- In the placeholder of one key that of another key does not occur. -/
theorem fold_eq_of_mentions_placeholder (plain : '$' ∉ name)
    (mentioned : Mentions key ('$' :: (name ++ ['$']))) : name.map fold = key.map fold := by
  obtain ⟨before, name', after, whole, same⟩ := mentioned
  cases before with
  | nil =>
    have apart := (List.append_cons_inj_of_notMem plain List.not_mem_nil).1 (List.cons.inj whole).2
    rw [apart.1, same]
  | cons c before =>
    have apart := (List.append_cons_inj_of_notMem plain List.not_mem_nil).1 (List.cons.inj whole).2
    exact absurd apart.2.2.symm (List.append_ne_nil_of_right_ne_nil name' (List.cons_ne_nil _ _))

/-! ## Single keys -/

theorem substitute_of_some (found : afterPlaceholder? key s = some rest) :
    substitute key value s = value ++ substitute key value rest := by
  cases s with
  | nil => cases found
  | cons c s =>
    rw [substitute]
    split
    · next rest' found' => rw [Option.some.inj (found'.symm.trans found)]
    · next none => cases none.symm.trans found

theorem substitute_cons_of_none (none : afterPlaceholder? key (c :: s) = none) :
    substitute key value (c :: s) = c :: substitute key value s := by
  rw [substitute]
  split
  · next found => cases none.symm.trans found
  · rfl

theorem substitute_of_not_mentions (value : List Char) (unmentioned : ¬ Mentions key s) :
    substitute key value s = s := by
  induction s with
  | nil => rw [substitute]
  | cons c s ih =>
    rw [mentions_cons_iff, not_or] at unmentioned
    obtain ⟨notHere, notLater⟩ := unmentioned
    have none := Option.eq_none_iff_forall_ne_some.2 (not_exists.1 notHere)
    rw [substitute_cons_of_none none, ih notLater]

theorem length_substitute_nil (key s : List Char) :
    (substitute key [] s).length ≤ s.length ∧
      (Mentions key s → (substitute key [] s).length < s.length) := by
  fun_induction substitute key [] s with
  | case1 => exact ⟨Nat.le_refl 0, fun mentioned => absurd mentioned not_mentions_nil⟩
  | case2 c s rest found ih =>
    have shorter := Nat.lt_of_le_of_lt ih.1 (afterPlaceholder?_length found)
    exact ⟨Nat.le_of_lt shorter, fun _ => shorter⟩
  | case3 c s none ih =>
    refine ⟨Nat.succ_le_succ ih.1, fun mentioned => ?_⟩
    obtain ⟨rest, found⟩ | later := mentions_cons_iff.1 mentioned
    · cases none.symm.trans found
    · exact Nat.succ_lt_succ (ih.2 later)

/-- To take a placeholder out of a text changes nothing just when it does not occur there. -/
theorem substitute_nil_eq_self_iff : substitute key [] s = s ↔ ¬ Mentions key s := by
  refine ⟨fun same mentioned => ?_, substitute_of_not_mentions []⟩
  have shorter := (length_substitute_nil key s).2 mentioned
  rw [same] at shorter
  exact Nat.lt_irrefl _ shorter

/-! ## Texts around a placeholder -/

theorem substitute_append_left (plain : '$' ∉ before) :
    substitute key value (before ++ s) = before ++ substitute key value s := by
  induction before with
  | nil => rw [List.nil_append, List.nil_append]
  | cons c before ih =>
    obtain ⟨noDollar, plainRest⟩ := List.ne_and_not_mem_of_not_mem_cons plain
    have none : afterPlaceholder? key (c :: (before ++ s)) = none := by
      refine Option.eq_none_iff_forall_ne_some.2 fun rest found => ?_
      obtain ⟨name, whole, -⟩ := afterPlaceholder?_eq_some_iff.1 found
      exact noDollar (List.cons.inj whole).1.symm
    rw [List.cons_append, substitute_cons_of_none none, ih plainRest, List.cons_append]

/-- A placeholder ends before a text without dollar signs. -/
theorem afterPlaceholder?_append (plain : '$' ∉ after) :
    afterPlaceholder? key (s ++ after) = (afterPlaceholder? key s).map (· ++ after) := by
  refine Option.ext fun rest => ?_
  rw [Option.map_eq_some_iff, afterPlaceholder?_eq_some_iff]
  constructor
  · rintro ⟨name, whole, same⟩
    obtain ⟨outer, -, rfl⟩ | ⟨closing, rfl, behind⟩ :=
      List.append_eq_append_iff.1 (whole.trans (List.cons_append ..).symm)
    · exact absurd (List.mem_append_right outer (List.mem_cons_self ..)) plain
    · cases closing with
      | nil =>
        rw [List.nil_append] at behind
        exact absurd (behind ▸ List.mem_cons_self ..) plain
      | cons c closing =>
        cases behind
        exact ⟨closing, afterPlaceholder?_eq_some_iff.2 ⟨name, rfl, same⟩, rfl⟩
  · rintro ⟨inner, found, rfl⟩
    obtain ⟨name, rfl, same⟩ := afterPlaceholder?_eq_some_iff.1 found
    refine ⟨name, ?_, same⟩
    rw [List.cons_append, List.append_assoc, List.cons_append]

theorem substitute_append_right (plain : '$' ∉ after) :
    substitute key value (s ++ after) = substitute key value s ++ after := by
  fun_induction substitute key value s with
  | case1 => exact substitute_of_notMem key value plain
  | case2 c s rest found ih =>
    have found' : afterPlaceholder? key (c :: s ++ after) = some (rest ++ after) := by
      rw [afterPlaceholder?_append plain, found, Option.map_some]
    rw [substitute_of_some found', ih, List.append_assoc]
  | case3 c s none ih =>
    have none' : afterPlaceholder? key (c :: (s ++ after)) = Option.none := by
      rw [← List.cons_append, afterPlaceholder?_append plain, none, Option.map_none]
    rw [List.cons_append, substitute_cons_of_none none', ih, List.cons_append]

/-! ## Templates with a body -/

/-- A text in which an entry has taken the place of its placeholders. -/
def replaced (text : String) (entry : String × String) : String :=
  String.ofList (substitute entry.1.toList entry.2.toList text.toList)

/-- The values that are put in after the body. -/
def afterBody (m : Manuscript) : List (String × String) :=
  (m.abstractText.map fun text => ("abstract", text)).toList
    ++ (m.appendix.map fun text => ("appendix", text)).toList

variable {entries : List (String × String)} {text pre post : String} {m : Manuscript}

theorem key_of_mem_afterBody {entry : String × String} (mem : entry ∈ afterBody m) :
    entry.1 = "abstract" ∨ entry.1 = "appendix" := by
  rw [afterBody, List.mem_append] at mem
  obtain first | second := mem
  · obtain ⟨abstractText, -, rfl⟩ := Option.map_eq_some_iff.1 (Option.mem_toList.1 first)
    exact .inl rfl
  · obtain ⟨appendix, -, rfl⟩ := Option.map_eq_some_iff.1 (Option.mem_toList.1 second)
    exact .inr rfl

theorem fill_eq (template : String) (m : Manuscript) :
    fill template m =
      (afterBody m).foldl replaced
        (replaced (m.frontMatter.entries.foldl replaced template) ("body", m.body)) := by
  have inOrder : fill template m =
      (m.frontMatter.entries ++ [("body", m.body)] ++ afterBody m).foldl replaced template := by
    rw [fill, values, List.append_assoc]
    rfl
  rw [inOrder, List.foldl_append, List.foldl_append]
  rfl

theorem replaced_append (noPre : '$' ∉ pre.toList) (noPost : '$' ∉ post.toList)
    (text : String) (entry : String × String) :
    replaced (pre ++ text ++ post) entry = pre ++ replaced text entry ++ post := by
  rw [replaced, String.toList_append, String.toList_append, substitute_append_right noPost,
    substitute_append_left noPre, String.ofList_append, String.ofList_append, String.ofList_toList,
    String.ofList_toList]
  rfl

theorem foldl_replaced_append (noPre : '$' ∉ pre.toList) (noPost : '$' ∉ post.toList)
    (entries : List (String × String)) (text : String) :
    entries.foldl replaced (pre ++ text ++ post) = pre ++ entries.foldl replaced text ++ post := by
  induction entries generalizing text with
  | nil => rfl
  | cons entry entries ih =>
    rw [List.foldl_cons, replaced_append noPre noPost, ih, List.foldl_cons]

theorem foldl_replaced_of_not_mentions
    (unmentioned : ∀ entry ∈ entries, ¬ Mentions entry.1.toList text.toList) :
    entries.foldl replaced text = text := by
  induction entries with
  | nil => rfl
  | cons entry entries ih =>
    obtain ⟨first, others⟩ := List.forall_mem_cons.1 unmentioned
    rw [List.foldl_cons, replaced, substitute_of_not_mentions _ first, String.ofList_toList,
      ih others]

theorem replaced_empty_eq_self_iff {key : String} :
    replaced text (key, "") = text ↔ ¬ Mentions key.toList text.toList := by
  rw [← substitute_nil_eq_self_iff, replaced, ← String.toList_inj, String.toList_ofList]
  rfl

section Fill

variable (noPre : '$' ∉ pre.toList) (noPost : '$' ∉ post.toList)
  (noBody : ∀ entry ∈ m.frontMatter.entries, entry.1.toList.map fold ≠ "body".toList.map fold)
include noPre noPost noBody

/-- The passes before that for the body change nothing, and those after it change only the body. -/
theorem fill_between :
    fill (pre ++ "$body$" ++ post) m = pre ++ (afterBody m).foldl replaced m.body ++ post := by
  have front : m.frontMatter.entries.foldl replaced "$body$" = "$body$" := by
    refine foldl_replaced_of_not_mentions fun entry mem mentioned => ?_
    exact noBody entry mem (fold_eq_of_mentions_placeholder (by decide) mentioned).symm
  have body : replaced "$body$" ("body", m.body) = m.body := by
    have found : afterPlaceholder? "body".toList "$body$".toList = some [] :=
      afterPlaceholder?_eq_some_iff.2 ⟨"body".toList, rfl, rfl⟩
    rw [replaced, substitute_of_some found, substitute, List.append_nil, String.ofList_toList]
  rw [fill_eq, foldl_replaced_append noPre noPost, front, replaced_append noPre noPost, body,
    foldl_replaced_append noPre noPost]

/-- What comes in the place of a body between texts without dollar signs is what the placeholders of
the abstract and the appendix make of it, where there are such regions. This is the body as it is
when it has none of these placeholders, and it is so beside any abstract and appendix only then. -/
theorem fill_body :
    fill (pre ++ "$body$" ++ post) m = pre ++ (afterBody m).foldl replaced m.body ++ post ∧
    ((∀ entry ∈ afterBody m, ¬ Mentions entry.1.toList m.body.toList) →
      fill (pre ++ "$body$" ++ post) m = pre ++ m.body ++ post) ∧
    ((∀ abstractText appendix,
        fill (pre ++ "$body$" ++ post) { m with abstractText, appendix } =
          pre ++ m.body ++ post) ↔
      ¬ Mentions "abstract".toList m.body.toList ∧ ¬ Mentions "appendix".toList m.body.toList) := by
  have whole := fill_between noPre noPost noBody
  have besides : ∀ abstractText appendix,
      fill (pre ++ "$body$" ++ post) { m with abstractText, appendix } =
        pre ++ (afterBody { m with abstractText, appendix }).foldl replaced m.body ++ post :=
    fun abstractText appendix => fill_between (m := { m with abstractText, appendix }) noPre noPost
      noBody
  refine ⟨whole, fun unmentioned => ?_, fun verbatim => ?_, fun unmentioned => ?_⟩
  · rw [whole, foldl_replaced_of_not_mentions unmentioned]
  · have same : ∀ abstractText appendix,
        (afterBody { m with abstractText, appendix }).foldl replaced m.body = m.body := by
      intro abstractText appendix
      have between := (besides abstractText appendix).symm.trans (verbatim abstractText appendix)
      rwa [String.append_left_inj, String.append_right_inj] at between
    exact ⟨replaced_empty_eq_self_iff.1 (same (some "") none),
      replaced_empty_eq_self_iff.1 (same none (some ""))⟩
  · intro abstractText appendix
    rw [besides, foldl_replaced_of_not_mentions]
    intro entry mem
    obtain key | key := key_of_mem_afterBody mem
    · rw [key]
      exact unmentioned.1
    · rw [key]
      exact unmentioned.2

end Fill

/-- A manuscript with front matter, both other regions, and mathematics in its body. -/
def withMath : Manuscript :=
  ⟨⟨[("$", "odd"), ("title", "On $x$")]⟩, some "short\n\n", "costs $1, $x$ and $Title$\n\n",
    some "proofs\n\n", .empty⟩

theorem fill_body_withMath :
    fill ("top\n" ++ "$body$" ++ "\nend") withMath =
      "top\n" ++ "costs $1, $x$ and $Title$\n\n" ++ "\nend" := by
  refine (fill_body (m := withMath) ?_ ?_ ?_).2.1 ?_ <;> decide +kernel

/-- A note with an abstract, and mathematics in its body. -/
def mathNotes : Memory :=
  ⟨[(⟨"paper.md"⟩, "# Abstract\nshort\n# Body\n$abstract$\n")], [], []⟩

/-- A body is not always put in as it is: an inline formula that reads like the placeholder of the
abstract gives way to the abstract. -/
theorem fill_rewrites_body :
    (¬ ∀ (m : Manuscript) (pre post : String),
      (∀ entry ∈ m.frontMatter.entries, entry.1.toList.map fold ≠ "body".toList.map fold) →
      '$' ∉ pre.toList → '$' ∉ post.toList →
      fill (pre ++ "$body$" ++ post) m = pre ++ m.body ++ post) ∧
    ((Export.assemble ⟨"paper.md"⟩ none .standard).on ⟨mathNotes, [], [], .open_ none⟩).map
        (fun (outcome, _) => outcome.toOption.map fun m => (m.body, fill "$body$" m)) =
      some (some ("$abstract$\n\n", "short\n\n\n\n")) := by
  refine ⟨fun verbatim => ?_, by decide +kernel⟩
  have kept := verbatim ⟨.empty, some "short\n\n", "$abstract$\n\n", none, .empty⟩ "" ""
    nofun (by decide) (by decide)
  exact absurd kept (by decide +kernel)

end Longform.Template
