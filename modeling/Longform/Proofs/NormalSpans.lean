import Longform.Proofs.Formulas
import Longform.Proofs.LinkParts

/-!
# The form of inline text

Whatever a text holds, closed and unclosed marks in any order, what is read of it
has one form at every depth: literal text is never empty nor cut in two, emphasis
is never empty, and the other spans are as their marks allow.

* `textsApart_gather`, `emptyText_notMem_gather`: literal text is gathered whole.
* `isProper_of_span?`: what opens at some place of a text is proper, one case for
  each reader.
* `parse_isNormal` puts these together over all depths.
-/

namespace Longform

open Text

namespace Link

variable {link : Link} {inner : List Char}

/-! ## The parts of links on one line -/

/-- The parts of a link that is read are made of characters of its text. -/
theorem mem_of_parse? (read : parse? inner = some link) {c : Char} :
    (c ∈ link.address.toList → c ∈ inner) ∧
      (∀ heading ∈ link.heading, c ∈ heading.toList → c ∈ inner) ∧
      ∀ label ∈ link.label, c ∈ label.toList → c ∈ inner := by
  -- Without its label a link is read of the text before the first bar.
  have ofTarget {t : List Char} {link : Link} (noBar : '|' ∉ t) (read : parse? t = some link) :
      (c ∈ link.address.toList → c ∈ t) ∧ ∀ heading ∈ link.heading, c ∈ heading.toList → c ∈ t := by
    rcases cut : cut? ['#'] t with _ | ⟨address, heading⟩
    · rw [parse?_address noBar (not_mem_of_cut?_none cut)] at read
      obtain ⟨part, isPart, rfl⟩ := Option.map_eq_some_iff.1 read
      exact ⟨fun mem => (List.takeWhile_sublist _).subset (mem_of_part? isPart mem), nofun⟩
    · obtain rfl : t = address ++ '#' :: heading := by simpa using cut?_eq_some cut
      rw [parse?_heading noBar (not_mem_of_cut? cut)] at read
      obtain ⟨part, isPart, rfl⟩ := Option.map_eq_some_iff.1 read
      refine ⟨fun mem => List.mem_append_left _ (mem_of_part? isPart mem),
        fun h isHeading mem => ?_⟩
      have inHeading := (List.takeWhile_sublist _).subset (mem_of_part? isHeading mem)
      exact List.mem_append_right _ (List.mem_cons_of_mem _ inHeading)
  rcases cut : cut? ['|'] inner with _ | ⟨target, label⟩
  · have noBar := not_mem_of_cut?_none cut
    obtain ⟨address, heading⟩ := ofTarget noBar read
    rw [(tidy_of_parse?_target noBar read).2]
    exact ⟨address, heading, nofun⟩
  · obtain rfl : inner = target ++ '|' :: label := by simpa using cut?_eq_some cut
    have noBar := not_mem_of_cut? cut
    rw [parse?_label noBar] at read
    obtain ⟨unlabelled, readTarget, rfl⟩ := Option.map_eq_some_iff.1 read
    obtain ⟨address, heading⟩ := ofTarget noBar readTarget
    refine ⟨fun mem => List.mem_append_left _ (address mem),
      fun h isHeading mem => List.mem_append_left _ (heading h isHeading mem),
      fun l isLabel mem => ?_⟩
    exact List.mem_append_right _ (List.mem_cons_of_mem _ (mem_of_part? isLabel mem))

theorem isPart_of_parse? (oneLine : '\n' ∉ inner) (read : parse? inner = some link) :
    IsPart link.address ∧ (∀ heading ∈ link.heading, IsPart heading) ∧
      ∀ label ∈ link.label, IsPart label := by
  have tidy := tidy_of_parse? read
  obtain ⟨address, heading, label⟩ := mem_of_parse? read (c := '\n')
  refine ⟨⟨tidy.address.nonempty, tidy.address.trimmed, fun mem => oneLine (address mem)⟩, ?_, ?_⟩
  · intro h isHeading
    obtain ⟨tight, -⟩ := tidy.heading h isHeading
    exact ⟨tight.nonempty, tight.trimmed, fun mem => oneLine (heading h isHeading mem)⟩
  · intro l isLabel
    have tight := tidy.label l isLabel
    exact ⟨tight.nonempty, tight.trimmed, fun mem => oneLine (label l isLabel mem)⟩

end Link

namespace Inline

variable {i : Inline} {spans : List Inline} {run s t rest body : List Char} {prev : Option Char}
  {m : Mark} {o : Opening} {ps : List Piece}

/-! ## Proper spans -/

/-- Whether a span is literal text. -/
def isText : Inline → Bool
  | .text _ => true
  | _ => false

/-- No two literal texts stand side by side. -/
def TextsApart (spans : List Inline) : Prop :=
  spans.IsChain fun i j => ¬ (i.isText = true ∧ j.isText = true)

/-- A span is as its marks allow. What it holds is looked at one level deep. -/
def IsProper : Inline → Prop
  | .text t => t ≠ ""
  | .emphasis inner => inner ≠ [] ∧ TextsApart inner
  | .strong inner => inner ≠ [] ∧ TextsApart inner
  | .code c => c ≠ "" ∧ '`' ∉ c.toList
  | .math m => m ≠ "" ∧ startsIn isBlank m.toList = false ∧ endsIn isBlank m.toList = false
  | .citation keys => keys ≠ [] ∧ ∀ key ∈ keys, IsKey key
  | .link l => Link.IsPart l.address ∧ (∀ heading ∈ l.heading, Link.IsPart heading) ∧
      ∀ label ∈ l.label, Link.IsPart label

/-- At every depth of a text the spans are proper, and no two literal texts stand side by side. -/
structure IsNormal (spans : List Inline) : Prop where
  apart : TextsApart spans
  proper : ∀ i ∈ allSpans spans, IsProper i

/-! ## Gathering -/

theorem textsApart_literal (apart : TextsApart spans)
    (first : ∀ i ∈ spans.head?, i.isText = false) (run : List Char) :
    TextsApart (literal run spans) := by
  cases run with
  | nil => exact apart
  | cons c run =>
    refine List.isChain_cons.2 ⟨fun i among both => ?_, apart⟩
    rw [first i among] at both
    exact absurd both.2 Bool.false_ne_true

/-- Among the spans behind the first run no text comes first, and no two stand side by side. -/
theorem gatherRuns_apart (noText : ∀ i, .inr i ∈ ps → i.isText = false) :
    (∀ i ∈ (gatherRuns ps).2.head?, i.isText = false) ∧ TextsApart (gatherRuns ps).2 := by
  induction ps with
  | nil => exact ⟨nofun, List.isChain_nil⟩
  | cons p ps ih =>
    obtain ⟨first, apart⟩ := ih fun i mem => noText i (List.mem_cons_of_mem _ mem)
    rcases p with c | i
    · exact ⟨first, apart⟩
    · have noTextHere := noText i (List.mem_cons_self ..)
      constructor
      · rintro j ⟨⟩
        exact noTextHere
      · refine List.isChain_cons.2 ⟨fun j _ both => ?_, textsApart_literal apart first _⟩
        rw [noTextHere] at both
        exact absurd both.1 Bool.false_ne_true

theorem textsApart_gather (noText : ∀ i, .inr i ∈ ps → i.isText = false) :
    TextsApart (gather ps) := by
  obtain ⟨first, apart⟩ := gatherRuns_apart noText
  exact textsApart_literal apart first _

/-- No text that is gathered is empty. -/
theorem nonempty_of_mem_literal (proper : .text "" ∉ spans) : .text "" ∉ literal run spans := by
  cases run with
  | nil => exact proper
  | cons c run =>
    refine List.not_mem_cons_of_ne_of_not_mem (fun same => ?_) proper
    have empty := Inline.text.inj same
    exact absurd (String.ofList_eq_empty_iff.1 empty.symm) (List.cons_ne_nil c run)

theorem emptyText_notMem_gather (noText : ∀ i, .inr i ∈ ps → i.isText = false) :
    .text "" ∉ gather ps := by
  have behind : .text "" ∉ (gatherRuns ps).2 := by
    induction ps with
    | nil => exact List.not_mem_nil
    | cons p ps ih =>
      have others := ih fun i mem => noText i (List.mem_cons_of_mem _ mem)
      rcases p with c | i
      · exact others
      · refine List.not_mem_cons_of_ne_of_not_mem ?_ (nonempty_of_mem_literal others)
        rintro rfl
        cases noText _ (List.mem_cons_self ..)
  exact nonempty_of_mem_literal behind

theorem literal_eq_nil_iff : literal run spans = [] ↔ run = [] ∧ spans = [] := by
  cases run <;> simp [literal]

/-- Nothing is gathered of nothing only. -/
theorem gather_eq_nil_iff : gather ps = [] ↔ ps = [] := by
  refine ⟨fun none => ?_, fun none => by rw [none]; rfl⟩
  obtain ⟨noRun, noSpans⟩ := literal_eq_nil_iff.1 none
  rcases ps with _ | ⟨c | i, ps⟩
  · rfl
  · cases noRun
  · cases noSpans

theorem pieces_eq_nil_iff : pieces prev s = [] ↔ s = [] := by
  refine ⟨fun none => ?_, fun none => by rw [none, pieces_nil]⟩
  rcases s with _ | ⟨c, s⟩
  · rfl
  · rw [pieces] at none
    split at none <;> cases none

/-! ## Readers -/

theorem exists_of_mem_mapM {α β : Type} {f : α → Option β} {xs : List α} {ys : List β}
    (read : xs.mapM f = some ys) : ys.length = xs.length ∧ ∀ y ∈ ys, ∃ x ∈ xs, f x = some y := by
  induction xs generalizing ys with
  | nil =>
    cases read
    exact ⟨rfl, List.forall_mem_nil _⟩
  | cons x xs ih =>
    rw [List.mapM_cons] at read
    obtain ⟨y, first, read⟩ := Option.bind_eq_some_iff.1 read
    obtain ⟨ys, others, same⟩ := Option.bind_eq_some_iff.1 read
    cases same
    obtain ⟨length, each⟩ := ih others
    refine ⟨congrArg (· + 1) length, List.forall_mem_cons.2 ⟨⟨x, List.mem_cons_self .., first⟩, ?_⟩⟩
    intro y mem
    obtain ⟨x, among, found⟩ := each y mem
    exact ⟨x, List.mem_cons_of_mem _ among, found⟩

theorem isKey_of_citationKey? {part : List Char} {key : String} (noSemicolon : ';' ∉ part)
    (noBracket : ']' ∉ part) (read : citationKey? part = some key) : IsKey key := by
  rw [citationKey?] at read
  split at read
  · cases read
  · next behind found =>
    split at read
    · cases read
    · next c cs taken =>
      cases read
      have whole := after?_eq_some found
      have among : ∀ d ∈ (String.ofList (c :: cs)).toList,
          (isBlank d = false ∧ d ≠ ',') ∧ d ∈ part := by
        intro d mem
        rw [String.toList_ofList, ← taken] at mem
        have stays := List.all_eq_true.1 List.all_takeWhile d mem
        refine ⟨by simpa using stays, (trim_sublist part).subset ?_⟩
        rw [whole]
        exact List.mem_append_right _ ((List.takeWhile_sublist _).subset mem)
      refine ⟨fun none => ?_, fun d mem => (among d mem).1.1,
        fun d mem => ⟨(among d mem).1.2, ?_, ?_⟩⟩
      · exact absurd (String.ofList_eq_empty_iff.1 none) (List.cons_ne_nil c cs)
      · rintro rfl
        exact noSemicolon (among _ mem).2
      · rintro rfl
        exact noBracket (among _ mem).2

theorem ReadWhole.isProper (whole : ReadWhole i) : i.isText = false ∧ IsProper i := by
  cases whole with
  | link read =>
    obtain ⟨inner, l, oneLine, parsed, rfl⟩ := of_link? read
    exact ⟨rfl, Link.isPart_of_parse? oneLine parsed⟩
  | citation read =>
    obtain ⟨inner, keys, noBracket, parsed, rfl⟩ := of_citation? read
    obtain ⟨length, each⟩ := exists_of_mem_mapM parsed
    refine ⟨rfl, ?_, fun key mem => ?_⟩
    · rintro rfl
      exact splitOn_ne_nil ';' inner (List.length_eq_zero_iff.1 length.symm)
    · obtain ⟨part, among, isKey⟩ := each key mem
      exact isKey_of_citationKey? (notMem_of_mem_splitOn among)
        (fun bracket => noBracket ((sublist_of_mem_splitOn among).subset bracket)) isKey
  | code read =>
    obtain ⟨c, some, noTick, rfl⟩ := of_code? read
    refine ⟨rfl, fun none => some (String.ofList_eq_empty_iff.1 none), ?_⟩
    rwa [String.toList_ofList]
  | math read =>
    obtain ⟨m, enclosed, rfl, -⟩ := math?_eq_some_iff.1 read
    refine ⟨rfl, fun none => enclosed.nonempty (String.ofList_eq_empty_iff.1 none), ?_, ?_⟩
    · rw [String.toList_ofList]
      exact enclosed.firstSeen
    · rw [String.toList_ofList]
      exact enclosed.lastSeen

/-- What a mark closes behind is not empty. -/
theorem ne_nil_of_findClose (found : m.findClose run s = some (body, rest)) : body ≠ [] := by
  fun_induction Mark.findClose m run s with
  | case1 => cases found
  | case2 run c t after opens closes =>
    cases found
    rintro none
    rw [List.reverse_eq_nil_iff.1 none] at closes
    cases closes
  | case3 run c t after opens _ ih => exact ih found
  | case4 run c t _ ih => exact ih found

theorem ne_nil_of_span? (opens : span? prev s = some (.marked m body, rest)) : body ≠ [] := by
  unfold span? at opens
  split at opens
  case h_10 => cases opens
  all_goals
    obtain ⟨⟨inside, after⟩, read, same⟩ := Option.map_eq_some_iff.1 opens
    cases same
  all_goals
    rw [Mark.body?] at read
    split at read
    · cases read
    · exact ne_nil_of_findClose read

theorem isText_apply (m : Mark) (inner : List Inline) : (m.apply inner).isText = false := by
  rw [Mark.apply]
  split <;> rfl

theorem isText_of_span? (opens : span? prev s = some (o, rest)) : o.span.isText = false := by
  cases o with
  | leaf i closer => exact (readWhole_of_span? opens).isProper.1
  | marked m body => exact isText_apply m _

theorem isText_of_mem_pieces (mem : .inr i ∈ pieces prev s) : i.isText = false := by
  obtain ⟨_, _, o, _, opens, rfl⟩ := exists_opening_of_mem_pieces mem
  exact isText_of_span? opens

theorem isProper_apply (m : Mark) (some : spans ≠ []) (apart : TextsApart spans) :
    IsProper (m.apply spans) := by
  rw [Mark.apply]
  split <;> exact ⟨some, apart⟩

/-- What opens at some place of a text is a proper span. -/
theorem isProper_of_span? (opens : span? prev s = some (o, rest)) : IsProper o.span := by
  cases o with
  | leaf i closer => exact (readWhole_of_span? opens).isProper.2
  | marked m body =>
    refine isProper_apply m (fun none => ?_) (textsApart_gather fun i => isText_of_mem_pieces)
    exact ne_nil_of_span? opens (pieces_eq_nil_iff.1 (gather_eq_nil_iff.1 none))

theorem isProper_of_mem_parse {t : String} (mem : i ∈ parse t) : IsProper i := by
  rcases mem_parse mem with ⟨u, rfl⟩ | ⟨_, _, o, _, opens, rfl⟩
  · rintro rfl
    exact emptyText_notMem_gather (fun i => isText_of_mem_pieces) mem
  · exact isProper_of_span? opens

theorem parse_eq_nil_iff (t : String) : parse t = [] ↔ t = "" := by
  rw [parse, gather_eq_nil_iff, pieces_eq_nil_iff, String.toList_eq_nil_iff]

/-- A text is read as spans in normal form, and as none only if it is empty. -/
theorem parse_isNormal (t : String) : IsNormal (parse t) ∧ (parse t = [] ↔ t = "") := by
  refine ⟨⟨textsApart_gather fun i => isText_of_mem_pieces, fun i mem => ?_⟩, parse_eq_nil_iff t⟩
  obtain ⟨s, among⟩ := exists_mem_parse mem
  exact isProper_of_mem_parse among

end Inline

end Longform
