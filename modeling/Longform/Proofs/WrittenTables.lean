import Longform.Proofs.QuotedText
import Longform.Proofs.WrittenNumbers
import Longform.Toml.Line

/-!
# Tables that are read back

Lines that set bare keys in tables with headers are read as what they say.

* `Spells`: what a value is read from. `spells_encode` and `spells_toString` are the two
  kinds of values that are ever written.
* `Tells`: what a text of such lines tells, and `lines?_of_tells`: the lines that are read
  from it are these.
* `read_of_tells`: the table that is read has the sections with what is set in them,
  when no key is set twice.
-/

namespace Longform.Toml

open Text

variable {text name key : String} {s rest : List Char} {c : Char} {n : Nat} {v : Value} {t : Table}
  {sections before : List (String × Table)}

/-! ## Values -/

/-- A text is read as a value when it ends its line. -/
def Spells (text : String) (v : Value) : Prop :=
  ∀ rest, value? maxDepth ((text.toList ++ '\n' :: rest).dropWhile isIndent) =
    some (v, '\n' :: rest)

theorem value?_eq_scalar? (noBracket : c ≠ '[') (noBrace : c ≠ '{') :
    value? maxDepth (c :: s) = scalar? (c :: s) := by
  change value? (78 + 1) (c :: s) = _
  rw [value?.eq_def]
  dsimp only
  split
  · next same => exact absurd (List.head_eq_of_cons_eq same) noBracket
  · next same => exact absurd (List.head_eq_of_cons_eq same) noBrace
  · rfl

theorem spells_encode (text : String) :
    Spells (String.ofList (Quoted.encode text.toList)) (.string text) := by
  intro rest
  obtain ⟨q, t, quote, same⟩ := Quoted.exists_quote_encode text.toList
  obtain ⟨noIndent, noBracket, noBrace⟩ : ¬ isIndent q = true ∧ q ≠ '[' ∧ q ≠ '{' := by
    rcases quote with rfl | rfl <;> decide
  have read := Quoted.decode_encode text.toList rest
  rw [String.toList_ofList]
  rw [same, List.cons_append] at read ⊢
  rw [List.dropWhile_cons_of_neg noIndent, value?_eq_scalar? noBracket noBrace, scalar?, read]
  simp only [String.ofList_toList]

theorem decode_digits (digits : IsDigits s) : Quoted.decode (s ++ '\n' :: rest) = none := by
  cases s with
  | nil => simp [Quoted.decode, after?]
  | cons c s =>
    have ne : ∀ q, q.isDigit = false → c ≠ q := fun q other =>
      digits.ne (List.mem_cons_self ..) other
    have noQuote := ne '"' (by decide)
    have noApostrophe := ne '\'' (by decide)
    simp [Quoted.decode, after?, noQuote, noQuote.symm, noApostrophe, noApostrophe.symm]

theorem isTokenChar_of_isDigit (digit : c.isDigit = true) : isTokenChar c = true := by
  simp [isTokenChar, isBareChar, Char.isAlphanum, digit]

theorem scalar?_digits (digits : IsDigits s) (rest : List Char) :
    scalar? (s ++ '\n' :: rest) = (Value.ofToken? s).map (·, '\n' :: rest) := by
  have token : ∀ c ∈ s, isTokenChar c = true := fun c mem => isTokenChar_of_isDigit (digits c mem)
  have ends : isTokenChar '\n' = false := by decide
  rw [scalar?, decode_digits digits, cutMoment?_digits digits, List.takeWhile_append_of_pos token,
    List.dropWhile_append_of_pos token, List.takeWhile_cons, List.dropWhile_cons, ends]
  simp

theorem spells_toString (fits : n < wordSize 63) : Spells (toString n) (.integer n) := by
  intro rest
  have digits := isDigits_toDigits n
  have same : (toString n).toList = Nat.toDigits 10 n := Nat.toList_repr
  rw [same]
  obtain ⟨c, s, cons⟩ := List.exists_cons_of_ne_nil (Nat.toDigits_ne_nil (n := n) (b := 10))
  have read := scalar?_digits digits rest
  rw [ofToken?_toDigits fits, Option.map_some] at read
  have ne : ∀ q, q.isDigit = false → c ≠ q := fun q other =>
    digits.ne (cons ▸ List.mem_cons_self ..) other
  have noIndent : isIndent c = false := by
    rw [isIndent, Bool.or_eq_false_iff, beq_eq_false_iff_ne, beq_eq_false_iff_ne]
    exact ⟨ne ' ' (by decide), ne '\t' (by decide)⟩
  rw [cons, List.cons_append] at read ⊢
  rw [List.dropWhile_cons_of_neg (Bool.eq_false_iff.1 noIndent),
    value?_eq_scalar? (ne '[' (by decide)) (ne '{' (by decide)), read]

/-! ## Keys -/

/-- Whether a text is a key without quotes. -/
def isBareKey (key : String) : Bool := key != "" && key.toList.all isBareChar

theorem ne_of_isBareChar {d : Char} (bare : isBareChar c = true) (other : isBareChar d = false) :
    c ≠ d := by
  rintro rfl
  rw [bare] at other
  cases other

theorem isIndent_of_isBareChar (bare : isBareChar c = true) : isIndent c = false := by
  rw [isIndent, Bool.or_eq_false_iff, beq_eq_false_iff_ne, beq_eq_false_iff_ne]
  exact ⟨ne_of_isBareChar bare (by decide), ne_of_isBareChar bare (by decide)⟩

theorem exists_cons_of_isBareKey (bare : isBareKey key = true) :
    ∃ c s, key.toList = c :: s ∧ isBareChar c = true ∧ ∀ d ∈ s, isBareChar d = true := by
  rw [isBareKey, Bool.and_eq_true, bne_iff_ne, List.all_eq_true] at bare
  obtain ⟨some, all⟩ := bare
  rcases chars : key.toList with _ | ⟨c, s⟩
  · exact absurd (String.toList_eq_nil_iff.1 chars) some
  · rw [chars, List.forall_mem_cons] at all
    exact ⟨c, s, rfl, all⟩

theorem simpleKey?_bareKey (bare : isBareKey key = true)
    (ends : ∀ c ∈ rest.head?, isBareChar c = false) :
    simpleKey? (key.toList ++ rest) = some (key.toList, rest) := by
  obtain ⟨c, s, chars, first, others⟩ := exists_cons_of_isBareKey bare
  have all : ∀ d ∈ c :: s, isBareChar d = true := List.forall_mem_cons.2 ⟨first, others⟩
  have stop : rest.takeWhile isBareChar = [] ∧ rest.dropWhile isBareChar = rest := by
    cases rest with
    | nil => exact ⟨rfl, rfl⟩
    | cons d rest => simp [ends d rfl]
  have starts : startsIn isBareChar (c :: s ++ rest) = true := first
  rw [chars, simpleKey?.eq_def]
  split
  · next same =>
    exact absurd (List.head_eq_of_cons_eq same) (ne_of_isBareChar first (by decide))
  · next same =>
    exact absurd (List.head_eq_of_cons_eq same) (ne_of_isBareChar first (by decide))
  · rw [if_pos starts, List.takeWhile_append_of_pos all, List.dropWhile_append_of_pos all, stop.1,
      stop.2, List.append_nil]

/-- A bare key is a path of its own. Blanks may follow it, but no dot. -/
theorem path?_bareKey (bare : isBareKey key = true)
    (ends : ∀ c ∈ rest.head?, isBareChar c = false)
    (last : ∀ more, rest.dropWhile isIndent ≠ '.' :: more) :
    path? (key.toList ++ rest) = some ([], key, rest.dropWhile isIndent) := by
  obtain ⟨c, s, chars, first, -⟩ := exists_cons_of_isBareKey bare
  have begins : (key.toList ++ rest).dropWhile isIndent = key.toList ++ rest := by
    rw [chars, List.cons_append,
      List.dropWhile_cons_of_neg (Bool.eq_false_iff.1 (isIndent_of_isBareChar first))]
  have keys : keys? (key.toList ++ rest) = some ([key], rest.dropWhile isIndent) := by
    rw [keys?, begins, simpleKey?_bareKey bare ends]
    simp only [bind, Option.bind, String.ofList_toList]
  rw [path?, keys]
  rfl

/-! ## Lines -/

theorem line?_header (bare : isBareKey name = true) :
    line? ('[' :: (name.toList ++ ']' :: rest)) = some (.header [] name, rest) := by
  obtain ⟨c, s, chars, first, -⟩ := exists_cons_of_isBareKey bare
  have path : path? (name.toList ++ ']' :: rest) = some ([], name, ']' :: rest) :=
    path?_bareKey bare (by rintro c ⟨⟩; decide) (by simp [isIndent])
  rw [line?.eq_def]
  split
  · next same =>
    rw [chars, List.cons_append] at same
    have second := List.head_eq_of_cons_eq (List.tail_eq_of_cons_eq same)
    exact absurd second (ne_of_isBareChar first (by decide))
  · next same =>
    rw [← List.tail_eq_of_cons_eq same, path]
    rfl
  · next _ other => exact absurd rfl (other _)

theorem line?_setting (bare : isBareKey key = true) (spells : Spells text v) (rest : List Char) :
    line? (key.toList ++ ' ' :: '=' :: ' ' :: (text.toList ++ '\n' :: rest)) =
      some (.setting [] key v, '\n' :: rest) := by
  obtain ⟨c, s, chars, first, -⟩ := exists_cons_of_isBareKey bare
  have noBracket : c ≠ '[' := ne_of_isBareChar first (by decide)
  have path : path? (key.toList ++ ' ' :: '=' :: ' ' :: (text.toList ++ '\n' :: rest)) =
      some ([], key, '=' :: ' ' :: (text.toList ++ '\n' :: rest)) :=
    path?_bareKey bare (by rintro c ⟨⟩; decide) (by simp [isIndent])
  have setting : setting? (value? maxDepth)
      (key.toList ++ ' ' :: '=' :: ' ' :: (text.toList ++ '\n' :: rest)) =
        some (([], key, v), '\n' :: rest) := by
    rw [setting?, path]
    have value : value? maxDepth (List.dropWhile isIndent (' ' :: (text.toList ++ '\n' :: rest))) =
        some (v, '\n' :: rest) := spells rest
    simp only [bind, Option.bind, after?, if_true, value]
  rw [line?.eq_def]
  split
  · next same =>
    rw [chars] at same
    exact absurd (List.head_eq_of_cons_eq same) noBracket
  · next same =>
    rw [chars] at same
    exact absurd (List.head_eq_of_cons_eq same) noBracket
  · rw [setting]
    rfl

/-- A line that begins with neither a blank nor a comment and is followed by lines that are read. -/
theorem lines?_cons {line : Line} {lines : List Line} (first : isBareChar c = true ∨ c = '[')
    (read : line? (c :: s) = some (line, '\n' :: rest)) (shorter : rest.length ≤ s.length)
    (others : lines? rest = .ok lines) : lines? (c :: s) = .ok (line :: lines) := by
  have ne : ∀ d, isBareChar d = false → d ≠ '[' → c ≠ d := by
    rintro d other noBracket rfl
    rcases first with bare | bracket
    · exact ne_of_isBareChar bare other rfl
    · exact noBracket bracket
  have noIndent : ¬ isIndent c = true := by
    rw [isIndent, Bool.or_eq_true, beq_iff_eq, beq_iff_eq, not_or]
    exact ⟨ne ' ' (by decide) (by decide), ne '\t' (by decide) (by decide)⟩
  have solid : afterLine? (c :: s) = none := by
    have kept : dropComment (c :: s) = c :: s := by
      rw [dropComment, List.dropWhile_cons_of_neg noIndent]
      split
      · next same =>
        exact absurd (List.head_eq_of_cons_eq same) (ne '#' (by decide) (by decide))
      · rfl
    rw [afterLine?, kept]
    dsimp only
    rw [afterBreak?.eq_def]
    split
    · next same => exact absurd (List.head_eq_of_cons_eq same) (ne '\n' (by decide) (by decide))
    · next same => exact absurd (List.head_eq_of_cons_eq same) (ne '\r' (by decide) (by decide))
    · rfl
  have ended : afterLine? ('\n' :: rest) = some rest := rfl
  have less : rest.length < (c :: s).length := Nat.lt_succ_of_le shorter
  rw [lines?, solid, List.dropWhile_cons_of_neg noIndent]
  simp only [read, ended, if_pos less, others]
  rfl

theorem lines?_blank : lines? ('\n' :: rest) = lines? rest := by
  have ended : afterLine? ('\n' :: rest) = some rest := rfl
  rw [lines?, ended, List.dropWhile_cons_of_neg (by decide)]
  simp only [if_pos (Nat.lt_succ_self rest.length), List.length_cons]

/-- What a text tells line by line. -/
inductive Tells : String → List Line → Prop
  | nil : Tells "" []
  | blank {text lines} : Tells text lines → Tells ("\n" ++ text) lines
  | header {name text lines} (bare : isBareKey name = true) :
      Tells text lines → Tells ("[" ++ name ++ "]\n" ++ text) (.header [] name :: lines)
  | setting {key spelling v text lines} (bare : isBareKey key = true) (spells : Spells spelling v) :
      Tells text lines →
        Tells (key ++ " = " ++ spelling ++ "\n" ++ text) (.setting [] key v :: lines)

theorem Tells.head_cases {lines : List Line} (tells : Tells text lines) :
    ∀ c ∈ text.toList.head?, c = '\n' ∨ c = '[' ∨ isBareChar c = true := by
  intro c first
  cases tells with
  | nil => cases first
  | blank => exact .inl (by simpa using first.symm)
  | header => exact .inr (.inl (by simpa using first.symm))
  | @setting key spelling v text lines bare =>
    obtain ⟨d, s, chars, start, -⟩ := exists_cons_of_isBareKey bare
    have same : d = c := by simpa [chars] using first
    exact .inr (.inr (same ▸ start))

/-- The lines that are read are what the text tells. -/
theorem lines?_of_tells {lines : List Line} (tells : Tells text lines) :
    lines? text.toList = .ok lines := by
  induction tells with
  | nil =>
    rw [String.toList_empty, lines?]
    rfl
  | @blank text lines _ ih =>
    rw [String.toList_append]
    exact lines?_blank.trans ih
  | @header name text lines bare _ ih =>
    have chars : ("[" ++ name ++ "]\n" ++ text).toList =
        '[' :: (name.toList ++ ']' :: '\n' :: text.toList) := by simp
    rw [chars]
    exact lines?_cons (.inr rfl) (line?_header bare) (by simp; omega) ih
  | @setting key spelling v text lines bare spells _ ih =>
    have chars : (key ++ " = " ++ spelling ++ "\n" ++ text).toList =
        key.toList ++ ' ' :: '=' :: ' ' :: (spelling.toList ++ '\n' :: text.toList) := by simp
    obtain ⟨c, s, cons, first, -⟩ := exists_cons_of_isBareKey bare
    have read := line?_setting bare spells text.toList
    rw [chars]
    rw [cons, List.cons_append] at read ⊢
    exact lines?_cons (.inl first) read (by simp; omega) ih

theorem Tells.append {other : String} {lines others : List Line} (tells : Tells text lines)
    (after : Tells other others) : Tells (text ++ other) (lines ++ others) := by
  induction tells with
  | nil =>
    rw [String.empty_append]
    exact after
  | blank _ ih =>
    rw [String.append_assoc]
    exact .blank ih
  | header bare _ ih =>
    rw [String.append_assoc]
    exact .header bare ih
  | setting bare spells _ ih =>
    rw [String.append_assoc]
    exact .setting bare spells ih

/-! ## Tables -/

/-- The table with the given sections, each of which has a header of its own. -/
def ofSections (sections : List (String × Table)) : Table :=
  sections.map fun (name, t) => (name, .table .headed t)

/-- The lines of a section. -/
def sectionLines : String × Table → List Line
  | (name, t) => .header [] name :: t.map fun (key, v) => .setting [] key v

theorem lookup_eq_none_of_notMem (new : key ∉ t.map Prod.fst) : t.lookup key = none := by
  rw [List.lookup_eq_none_iff]
  intro e mem
  rw [bne_iff_ne]
  rintro rfl
  exact new (List.mem_map_of_mem mem)

theorem notMem_of_nodup {α : Type} {a : α} {before after : List (String × α)}
    (apart : ((before ++ (key, a) :: after).map Prod.fst).Nodup) : key ∉ before.map Prod.fst := by
  rw [List.map_append, List.map_cons, List.nodup_append] at apart
  exact fun mem => apart.2.2 key mem key (List.mem_cons_self ..) rfl

theorem map_fst_ofSections : (ofSections sections).map Prod.fst = sections.map Prod.fst := by
  rw [ofSections, List.map_map]
  rfl

/-- A header begins a section that is not there yet. -/
theorem add_header (place : List String) (new : name ∉ before.map Prod.fst) :
    Draft.add ⟨ofSections before, place⟩ (.header [] name) =
      .ok ⟨ofSections (before ++ [(name, [])]), [name]⟩ := by
  have none : (ofSections before).lookup name = none :=
    lookup_eq_none_of_notMem (map_fst_ofSections ▸ new)
  rw [Draft.add, Table.head, Table.alter, none, ofSections, ofSections, List.map_append]
  rfl

theorem lookup_ofSections_append (once : name ∉ before.map Prod.fst) :
    (ofSections (before ++ [(name, t)])).lookup name = some (.table .headed t) := by
  have none : (ofSections before).lookup name = none :=
    lookup_eq_none_of_notMem (map_fst_ofSections ▸ once)
  rw [ofSections, List.map_append, List.lookup_append, ← ofSections, none]
  simp

theorem replace_ofSections_append (once : name ∉ before.map Prod.fst) {new : Table} :
    (ofSections (before ++ [(name, t)])).replace name (.table .headed new) =
      ofSections (before ++ [(name, new)]) := by
  have others : ∀ e ∈ ofSections before,
      (if e.1 = name then (name, .table .headed new) else e) = e := by
    intro e mem
    refine if_neg fun same => once ?_
    rw [← map_fst_ofSections, ← same]
    exact List.mem_map_of_mem mem
  rw [Table.replace, ofSections, List.map_append, List.map_append, ← ofSections,
    List.map_congr_left others]
  simp [ofSections]

/-- A setting is added to the section of the last header. -/
theorem add_setting (once : name ∉ before.map Prod.fst) (new : key ∉ t.map Prod.fst) :
    Draft.add ⟨ofSections (before ++ [(name, t)]), [name]⟩ (.setting [] key v) =
      .ok ⟨ofSections (before ++ [(name, t ++ [(key, v)])]), [name]⟩ := by
  have set : Table.set [] key v t = .ok (t ++ [(key, v)]) := by
    rw [Table.set, Table.alter, lookup_eq_none_of_notMem new]
    rfl
  have altered : Table.alter false (fun _ t => Table.set [] key v t) [name] .headed
      (ofSections (before ++ [(name, t)])) =
        .ok (ofSections (before ++ [(name, t ++ [(key, v)])])) := by
    rw [Table.alter, lookup_ofSections_append once]
    simp [Table.alter, set, bind, Except.bind, pure, Except.pure, replace_ofSections_append once]
  simp [Draft.add, altered, bind, Except.bind, pure, Except.pure]

theorem foldlM_settings {more : Table} (once : name ∉ before.map Prod.fst)
    (apart : ((t ++ more).map Prod.fst).Nodup) :
    (more.map fun (key, v) => Line.setting [] key v).foldlM Draft.add
        ⟨ofSections (before ++ [(name, t)]), [name]⟩ =
      .ok ⟨ofSections (before ++ [(name, t ++ more)]), [name]⟩ := by
  induction more generalizing t with
  | nil =>
    rw [List.append_nil]
    rfl
  | cons e more ih =>
    obtain ⟨key, v⟩ := e
    have new := notMem_of_nodup apart
    rw [List.append_cons t] at apart ⊢
    rw [List.map_cons, List.foldlM_cons, add_setting once new]
    exact ih apart

/-- The lines of sections with different names, each of which has different keys, make these
sections. -/
theorem exists_foldlM_sections (before : List (String × Table)) (place : List String)
    (names : ((before ++ sections).map Prod.fst).Nodup)
    (keys : ∀ e ∈ sections, (e.2.map Prod.fst).Nodup) :
    ∃ place', (sections.flatMap sectionLines).foldlM Draft.add ⟨ofSections before, place⟩ =
      .ok ⟨ofSections (before ++ sections), place'⟩ := by
  -- The sections that are there already stay before the others.
  induction sections generalizing before place with
  | nil =>
    rw [List.append_nil]
    exact ⟨place, rfl⟩
  | cons e sections ih =>
    obtain ⟨name, t⟩ := e
    rw [List.forall_mem_cons] at keys
    have once := notMem_of_nodup names
    rw [List.append_cons before] at names ⊢
    obtain ⟨place', later⟩ := ih _ [name] names keys.2
    refine ⟨place', ?_⟩
    rw [List.flatMap_cons, sectionLines, List.cons_append, List.foldlM_cons, add_header place once]
    change ((t.map fun (key, v) => Line.setting [] key v) ++ _).foldlM Draft.add _ = _
    rw [List.foldlM_append, foldlM_settings (t := []) once keys.1]
    exact later

/-- A text that tells the lines of such sections is read as the table of them. -/
theorem read_of_tells (tells : Tells text (sections.flatMap sectionLines))
    (names : (sections.map Prod.fst).Nodup)
    (keys : ∀ e ∈ sections, (e.2.map Prod.fst).Nodup) :
    Toml.read text = .ok (ofSections sections) := by
  have noMark : after? ['\uFEFF'] text.toList = none := by
    cases text' : text.toList with
    | nil => rfl
    | cons c s =>
      have ne : c ≠ '\uFEFF' := by
        rintro rfl
        rcases tells.head_cases _ (by rw [text']; rfl) with feed | bracket | bare
        · cases feed
        · cases bracket
        · exact absurd bare (by decide)
      rw [after?, if_neg ne.symm]
  obtain ⟨place, made⟩ := exists_foldlM_sections [] [] names keys
  rw [Toml.read, noMark, Option.getD_none, lines?_of_tells tells]
  change Draft.entries <$>
    (sections.flatMap sectionLines).foldlM Draft.add ⟨ofSections [], []⟩ = _
  rw [made]
  rfl

end Longform.Toml
