import Longform.Proofs.NestedSpans

/-!
# Asterisks behind backslashes

A backslash makes the asterisk behind it literal where text is read, but not where
the end of emphasis is searched: there every asterisk counts. So text that is
emphasised with a backslash before each of its punctuation characters does not
always come back.

* `findClose_cut`: the search ends at the first asterisk of the text, or at a last
  one that stands right before a double mark. The backslash before it is taken for
  the end of the text.
* `parse_escaped_between_stars`: emphasised text comes back if it holds no asterisk
  but as its last character, strong text if it does not end in one.
-/

namespace Longform.Inline

open Text

variable {s rest before after : List Char} {t : String} {double : Bool}

/-! ## What the search passes over -/

theorem escaped_append (s rest : List Char) : escaped (s ++ rest) = escaped s ++ escaped rest :=
  List.flatMap_append

theorem findClose_backslash (inner rest : List Char) :
    (stars double).findClose inner ('\\' :: rest) =
      (stars double).findClose ('\\' :: inner) rest :=
  findClose_append (m := stars double) (s := ['\\']) (by simp [stars]) inner rest

/-- Written text without asterisks is passed over. -/
theorem findClose_escaped_of_notMem (absent : '*' ∉ s) (inner rest : List Char) :
    (stars double).findClose inner (escaped s ++ rest) =
      (stars double).findClose ((escaped s).reverse ++ inner) rest := by
  refine findClose_append (m := stars double) (fun mem => ?_) inner rest
  rcases mem_escaped mem with backslash | inText
  · cases backslash
  · exact absent inText

/-- In written text no two asterisks stand side by side, so where a double mark is searched all of
it is passed over. -/
theorem findClose_double_escaped
    (apart : endsIn (· == '*') s = false ∨ startsIn (· == '*') rest = false) (inner : List Char) :
    (stars true).findClose inner (escaped s ++ rest) =
      (stars true).findClose ((escaped s).reverse ++ inner) rest := by
  induction s generalizing inner with
  | nil => rfl
  | cons c s ih =>
    have later : endsIn (· == '*') s = false ∨ startsIn (· == '*') rest = false :=
      apart.imp_left endsIn_of_cons
    have passed : (stars true).findClose inner (escaped [c] ++ (escaped s ++ rest)) =
        (stars true).findClose ((escaped [c]).reverse ++ inner) (escaped s ++ rest) := by
      by_cases star : c = '*'
      · subst star
        -- Behind it comes the next character as it is written, or what follows the text.
        have alone : startsIn (· == '*') (escaped s ++ rest) = false := by
          rcases s with _ | ⟨d, s⟩
          · rcases apart with ends | starts
            · cases ends
            · exact starts
          · rw [startsIn_append (escaped_ne_nil (List.cons_ne_nil d s))]
            exact startsIn_star_escaped _
        exact (findClose_backslash inner _).trans (findClose_single alone _)
      · exact findClose_escaped_of_notMem (fun mem => star (List.mem_singleton.1 mem).symm) inner _
    rw [← List.singleton_append, escaped_append, List.append_assoc, passed, ih later,
      List.reverse_append, List.append_assoc]

/-- Written text is passed over up to its first asterisk or, where a double mark is searched, up to
one that stands right before what follows. -/
theorem findClose_escaped (absent : double = false → '*' ∉ s)
    (apart : endsIn (· == '*') s = false ∨ startsIn (· == '*') rest = false) (inner : List Char) :
    (stars double).findClose inner (escaped s ++ rest) =
      (stars double).findClose ((escaped s).reverse ++ inner) rest := by
  cases double with
  | false => exact findClose_escaped_of_notMem (absent rfl) inner rest
  | true => exact findClose_double_escaped apart inner

/-! ## Where marks close -/

/-- A mark closes behind a backslash, which is taken for the end of the text. -/
theorem findClose_cut (absent : double = false → '*' ∉ before)
    (apart : double = false → startsIn (· == '*') rest = false) :
    (stars double).findClose [] (escaped before ++ '\\' :: ((stars double).written ++ rest)) =
      some (escaped before ++ ['\\'], rest) := by
  rw [findClose_escaped absent (.inr rfl), findClose_backslash,
    findClose_written (closes_of_seen (List.cons_ne_nil _ _) rfl apart)]
  simp

/-- A mark closes behind text without asterisks, and a double mark behind text that does not end in
one. -/
theorem findClose_whole (some : s ≠ []) (seen : endsIn isBlank s = false)
    (absent : double = false → '*' ∉ s) (apart : endsIn (· == '*') s = false) :
    (stars double).findClose [] (escaped s ++ (stars double).written) = .some (escaped s, []) := by
  have closes : (stars double).closes (escaped s).reverse [] = true := by
    refine closes_of_seen (by simpa using escaped_ne_nil some) ?_ fun _ => rfl
    rw [startsIn_reverse, endsIn_escaped, seen]
  have passed : (stars double).findClose [] (escaped s ++ (stars double).written) =
      (stars double).findClose ((escaped s).reverse ++ []) (stars double).written :=
    findClose_escaped absent (.inl apart) []
  have found := findClose_written closes
  rw [List.append_nil] at passed found
  rw [passed, found, List.reverse_reverse]

/-- A last asterisk does not close before the mark, so the mark closes behind it. -/
theorem findClose_last (absent : '*' ∉ before) :
    (stars false).findClose [] (escaped (before ++ ['*']) ++ ['*']) =
      some (escaped (before ++ ['*']), []) := by
  have last : escaped ['*'] = ['\\', '*'] := rfl
  have passed : (stars false).findClose ('\\' :: ((escaped before).reverse ++ [])) ['*', '*'] =
      (stars false).findClose ('*' :: '\\' :: ((escaped before).reverse ++ [])) ['*'] :=
    findClose_mark (stars false) _ ['*']
  have closes : (stars false).closes ('*' :: '\\' :: ((escaped before).reverse ++ [])) [] = true :=
    rfl
  have found := findClose_written closes
  rw [escaped_append, last, List.append_assoc, findClose_escaped_of_notMem absent]
  change (stars false).findClose _ ('\\' :: '*' :: '*' :: []) = _
  rw [findClose_backslash, passed]
  refine found.trans ?_
  simp

/-! ## Reading -/

theorem pieces_backslash (prev : Option Char) : pieces prev ['\\'] = [.inl '\\'] := by
  rw [pieces_literal (span?_of_notMem (by decide))]
  exact congrArg (_ :: ·) (pieces_nil _)

/-- Text between asterisks, with a backslash before each of its punctuation characters. -/
def starred (double : Bool) (t : String) : String :=
  String.ofList ((stars double).written ++ (escaped t.toList ++ (stars double).written))

variable (nonempty : t ≠ "") (firstSeen : startsIn isBlank t.toList = false)

include nonempty firstSeen in
/-- The text is read up to where its mark is found to close. -/
theorem parse_starred {body left : List Char}
    (found : (stars double).findClose [] (escaped t.toList ++ (stars double).written) =
      some (body, left)) :
    parse (starred double t) =
      (stars double).apply (gather (pieces none body)) :: gather (pieces (some '*') left) := by
  have some := escaped_ne_nil (toList_ne_nil nonempty)
  rw [parse, starred, String.toList_ofList]
  refine gather_between_stars ?_ (fun _ => ?_) found
  · rw [startsIn_append some]
    refine startsIn_escaped rfl fun c first _ => ?_
    rwa [startsIn, Option.mem_def.1 first] at firstSeen
  · rw [startsIn_append some]
    exact startsIn_star_escaped t.toList

include nonempty firstSeen in
theorem parse_starred_whole
    (found : (stars double).findClose [] (escaped t.toList ++ (stars double).written) =
      some (escaped t.toList, [])) :
    parse (starred double t) = [(stars double).apply [.text t]] := by
  rw [parse_starred nonempty firstSeen found, gather_escaped nonempty, pieces_nil]
  rfl

include nonempty firstSeen in
/-- The mark closes at an asterisk of the text, and what is behind that is left over. -/
theorem parse_starred_cut (split : t.toList = before ++ '*' :: after)
    (absent : double = false → '*' ∉ before) (ends : double = true ↔ after = []) :
    parse (starred double t) =
      [(stars double).apply [.text (String.ofList (before ++ ['\\']))],
        .text (String.ofList (after ++ ['*']))] := by
  have apart : double = false → startsIn (· == '*') (escaped after ++ ['*']) = false := by
    rintro rfl
    have remains : after ≠ [] := fun none => Bool.false_ne_true (ends.2 none)
    rw [startsIn_append (escaped_ne_nil remains)]
    exact startsIn_star_escaped after
  have star : escaped ('*' :: after) = '\\' :: '*' :: escaped after := escaped_cons '*' after
  have whole : escaped t.toList ++ (stars double).written =
      escaped before ++ '\\' :: ((stars double).written ++ (escaped after ++ ['*'])) := by
    rw [split, escaped_append, star]
    cases double with
    | false => simp [stars, Mark.written, Mark.tail]
    | true => simp [stars, Mark.written, Mark.tail, ends.1 rfl, escaped]
  have found := findClose_cut absent apart
  rw [← whole] at found
  rw [parse_starred nonempty firstSeen found, gather_escaped_append pieces_backslash (by simp),
    gather_escaped_append pieces_star (by simp)]

/-- Which texts come back when they are written between asterisks with a backslash before each
punctuation character. Emphasised text does if no asterisk stands before its last character. If one
does, the first of them ends it. Strong text does if it does not end in an asterisk. If it does,
that asterisk and the first of the mark end it. Either way the backslash before the asterisk stays
as the end of the text, and what is behind is left over. -/
theorem parse_escaped_between_stars (nonempty : t ≠ "")
    (firstSeen : startsIn isBlank t.toList = false)
    (lastSeen : endsIn isBlank t.toList = false) :
    (parse (starred false t) = [.emphasis [.text t]] ↔ '*' ∉ t.toList.dropLast) ∧
    (parse (starred true t) = [.strong [.text t]] ↔ endsIn (· == '*') t.toList = false) ∧
    (∀ before after, t.toList = before ++ '*' :: after → '*' ∉ before → after ≠ [] →
      parse (starred false t) =
        [.emphasis [.text (String.ofList (before ++ ['\\']))],
          .text (String.ofList (after ++ ['*']))]) ∧
    ∀ before, t.toList = before ++ ['*'] →
      parse (starred true t) =
        [.strong [.text (String.ofList (before ++ ['\\']))], .text "*"] := by
  have emphasisCut : ∀ before after, t.toList = before ++ '*' :: after → '*' ∉ before →
      after ≠ [] → parse (starred false t) =
        [.emphasis [.text (String.ofList (before ++ ['\\']))],
          .text (String.ofList (after ++ ['*']))] := by
    intro before after split absent remains
    exact parse_starred_cut nonempty firstSeen split (fun _ => absent) (by simpa using remains)
  have strongCut : ∀ before, t.toList = before ++ ['*'] → parse (starred true t) =
      [.strong [.text (String.ofList (before ++ ['\\']))], .text "*"] := by
    intro before split
    exact parse_starred_cut nonempty firstSeen split (fun single => absurd single (by decide))
      (by simp)
  have some := toList_ne_nil nonempty
  obtain ⟨shown, last, split⟩ := (List.eq_nil_or_concat t.toList).resolve_left some
  rw [List.concat_eq_append] at split
  have front : t.toList.dropLast = shown := by rw [split, List.dropLast_concat]
  have ends : endsIn (· == '*') t.toList = (last == '*') := by simp [split, endsIn]
  refine ⟨⟨fun same mem => ?_, fun absent => ?_⟩, ⟨fun same => ?_, fun apart => ?_⟩, emphasisCut,
    strongCut⟩
  · obtain ⟨before, middle, first, absent⟩ := List.eq_append_cons_of_mem mem
    have whole : t.toList = before ++ '*' :: (middle ++ [last]) := by
      rw [split, ← front, first]
      simp
    rw [emphasisCut before _ whole absent (by simp)] at same
    cases same
  · rw [front] at absent
    apply parse_starred_whole nonempty firstSeen
    by_cases star : last = '*'
    · rw [split, star]
      exact findClose_last absent
    · refine findClose_whole some lastSeen (fun _ => ?_) (ends.trans (beq_false_of_ne star))
      rw [split]
      simpa [absent] using Ne.symm star
  · rw [ends]
    refine beq_false_of_ne fun star => ?_
    rw [strongCut shown (star ▸ split)] at same
    cases same
  · refine parse_starred_whole nonempty firstSeen (findClose_whole some lastSeen ?_ apart)
    exact fun single => absurd single (by decide)

/-- An asterisk and a backslash in the middle, and an asterisk at the end. -/
theorem parse_escaped_between_stars_middleAndEnd :
    starred false "\\a*b*" = "*\\\\a\\*b\\**" ∧ starred true "a*b" = "**a\\*b**" ∧
      parse (starred false "\\a*b*") = [.emphasis [.text "\\a\\"], .text "b**"] ∧
      parse (starred true "\\a*b*") = [.strong [.text "\\a*b\\"], .text "*"] ∧
      parse (starred false "a.b*") = [.emphasis [.text "a.b*"]] ∧
      parse (starred true "a*b") = [.strong [.text "a*b"]] := by
  obtain ⟨_, _, emphasisCut, strongCut⟩ :=
    parse_escaped_between_stars (t := "\\a*b*") (by decide) (by decide) (by decide)
  obtain ⟨emphasis, _⟩ :=
    parse_escaped_between_stars (t := "a.b*") (by decide) (by decide) (by decide)
  obtain ⟨_, strong, _⟩ :=
    parse_escaped_between_stars (t := "a*b") (by decide) (by decide) (by decide)
  exact ⟨by decide, by decide, emphasisCut ['\\', 'a'] ['b', '*'] rfl (by decide) (by decide),
    strongCut ['\\', 'a', '*', 'b'] rfl, emphasis.2 (by decide), strong.2 (by decide)⟩

/-- The asterisk behind a backslash closes the emphasised text. -/
theorem escaped_star_in_emphasis_cut :
    starred false "a*b" = "*a\\*b*" ∧
      parse "*a\\*b*" = [.emphasis [.text "a\\"], .text "b*"] ∧
      parse "*a\\*b*" ≠ [.emphasis [.text "a*b"]] := by
  have written : starred false "a*b" = "*a\\*b*" := by decide
  have read : parse "*a\\*b*" = [.emphasis [.text "a\\"], .text "b*"] := by
    have split : "a*b".toList = ['a'] ++ '*' :: ['b'] := rfl
    rw [← written]
    exact parse_starred_cut (by decide) (by decide) split (by decide) (by decide)
  refine ⟨written, read, fun same => ?_⟩
  rw [read] at same
  simp at same

end Longform.Inline
