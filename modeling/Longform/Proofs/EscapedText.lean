import Mathlib.Data.Bool.AllAny
import Mathlib.Logic.ExistsUnique
import Longform.Latex.Escape

/-!
# Escaped text can be read back

Escaped text is a row of tokens: characters that LaTeX takes for themselves, and
the commands that stand for those it does not. No token begins another, so a text
is such a row in one way at most.

* `eq_of_flatten_eq`: rows of tokens that make up the same text are the same.
* `flatten_written`: the tokens of escaped text are what is written for its
  characters, once its double quotes are two single ones each.
* `escape_loses_nothing` puts these together: no special character stands outside
  a command, and texts are escaped alike only if they differ in their quotes alone.
-/

namespace Longform.Latex

/-! ## Tokens -/

/-- The characters that LaTeX does not take for themselves, and the double quote. -/
def specials : List Char :=
  ['\\', '%', '&', '#', '$', '_', '{', '}', '^', '~', '<', '>', '|', '"']

/-- The commands for single characters. -/
def commands : List (List Char) :=
  ["\\%", "\\&", "\\#", "\\$", "\\_", "\\\x7b", "\\\x7d", "\\^\x7b\x7d",
    "\\textbackslash\x7b\x7d", "\\textasciitilde\x7b\x7d", "\\textless\x7b\x7d",
    "\\textgreater\x7b\x7d", "\\textbar\x7b\x7d"].map String.toList

/-- A character that is not special, or a command for one that is. -/
inductive IsToken : List Char → Prop
  | inert {c : Char} : c ∉ specials → IsToken [c]
  | command {token : List Char} : token ∈ commands → IsToken token

variable {a b s t before after : List Char} {tokens others : List (List Char)} {c d : Char}

theorem IsToken.ne_nil (isToken : IsToken a) : a ≠ [] := by
  cases isToken with
  | inert _ => exact List.cons_ne_nil _ _
  | command mem =>
    rintro rfl
    exact absurd mem (by decide)

/-- A token with a special character in it is a command. -/
theorem IsToken.mem_commands (isToken : IsToken (a ++ c :: b)) (special : c ∈ specials) :
    a ++ c :: b ∈ commands := by
  generalize whole : a ++ c :: b = token at isToken
  cases isToken with
  | inert plain =>
    have single : c ∈ a ++ c :: b := by simp
    rw [whole, List.mem_singleton] at single
    rw [single] at special
    exact absurd special plain
  | command mem => exact mem

/-- A command begins with a backslash, which is special. -/
theorem head_special_of_command (mem : c :: a ∈ commands) : c ∈ specials := by
  have backslash : ∀ token ∈ commands, token.head? = some '\\' := by decide +kernel
  have first : some c = some '\\' := backslash _ mem
  rw [Option.some.inj first]
  decide

theorem eq_of_command_prefix (left : a ∈ commands) (right : b ∈ commands) (begins : a <+: b) :
    a = b := by
  have apart : ∀ a ∈ commands, ∀ b ∈ commands, a <+: b → a = b := by decide +kernel
  exact apart a left b right begins

/-- No token begins another. -/
theorem IsToken.eq_of_prefix (left : IsToken a) (right : IsToken b) (begins : a <+: b) : a = b := by
  obtain ⟨rest, rfl⟩ := begins
  cases left with
  | inert plain =>
    generalize whole : [_] ++ rest = token at right
    cases right with
    | inert _ =>
      obtain ⟨rfl, rfl⟩ := List.cons.inj whole
      rfl
    | command mem =>
      rw [← whole] at mem
      exact absurd (head_special_of_command mem) plain
  | command left =>
    generalize whole : a ++ rest = token at right
    cases right with
    | inert plain =>
      rcases a with _ | ⟨c, a⟩
      · exact absurd rfl (IsToken.command left).ne_nil
      · obtain ⟨rfl, -⟩ := List.cons.inj whole
        exact absurd (head_special_of_command left) plain
    | command right => exact eq_of_command_prefix left right ⟨rest, whole⟩

/-- Of texts that begin with tokens the tokens can be told. -/
theorem IsToken.append_inj (left : IsToken a) (right : IsToken b) (same : a ++ s = b ++ t) :
    a = b ∧ s = t := by
  have first : a = b := by
    have inLeft : a <+: a ++ s := List.prefix_append a s
    have inRight : b <+: a ++ s := by
      rw [same]
      exact List.prefix_append b t
    rcases List.prefix_or_prefix_of_prefix inLeft inRight with begins | begins
    · exact left.eq_of_prefix right begins
    · exact (right.eq_of_prefix left begins).symm
  subst first
  exact ⟨rfl, List.append_cancel_left same⟩

/-- A text is a row of tokens in one way at most. -/
theorem eq_of_flatten_eq (left : ∀ token ∈ tokens, IsToken token)
    (right : ∀ token ∈ others, IsToken token) (same : tokens.flatten = others.flatten) :
    tokens = others := by
  induction tokens generalizing others with
  | nil =>
    rcases others with _ | ⟨b, others⟩
    · rfl
    · have empty := (List.append_eq_nil_iff.1 same.symm).1
      exact absurd empty (right b (List.mem_cons_self ..)).ne_nil
  | cons a tokens ih =>
    rcases others with _ | ⟨b, others⟩
    · have empty := (List.append_eq_nil_iff.1 same).1
      exact absurd empty (left a (List.mem_cons_self ..)).ne_nil
    · obtain ⟨first, inTokens⟩ := List.forall_mem_cons.1 left
      obtain ⟨first', inOthers⟩ := List.forall_mem_cons.1 right
      obtain ⟨rfl, rest⟩ := first.append_inj first' same
      rw [ih inTokens inOthers rest]

/-- Each character of a row of tokens belongs to one of them. -/
theorem exists_token_of_flatten (whole : tokens.flatten = before ++ c :: after) :
    ∃ earlier x y later, tokens = earlier ++ (x ++ c :: y) :: later ∧
      before = earlier.flatten ++ x ∧ after = y ++ later.flatten := by
  induction tokens generalizing before with
  | nil => exact absurd whole.symm (by simp)
  | cons token tokens ih =>
    rw [List.flatten_cons, List.append_eq_append_iff] at whole
    rcases whole with ⟨x, rfl, rest⟩ | ⟨y, rfl, rest⟩
    · obtain ⟨earlier, x', y, later, rfl, rfl, rfl⟩ := ih rest
      exact ⟨token :: earlier, x', y, later, rfl, by simp, rfl⟩
    · rcases y with _ | ⟨d, y⟩
      · have whole : tokens.flatten = [] ++ c :: after := rest.symm
        obtain ⟨earlier, x', y, later, rfl, none, rfl⟩ := ih whole
        exact ⟨(before ++ []) :: earlier, x', y, later, rfl, by simp [← none], rfl⟩
      · obtain ⟨rfl, rfl⟩ := List.cons.inj rest
        exact ⟨[], before, y, tokens, rfl, rfl, rfl⟩

/-! ## What is written for a character -/

theorem escapeChar_of_inert (inert : c ∉ specials) : escapeChar c = [c] := by
  unfold escapeChar
  split
  case h_15 => rfl
  all_goals exact absurd (by decide) inert

theorem escapeChar_mem_commands (special : c ∈ specials) (noQuote : c ≠ '"') :
    escapeChar c ∈ commands := by
  have written : ∀ c ∈ specials, c ≠ '"' → escapeChar c ∈ commands :=
    List.all_iff_forall_prop.1 (by decide +kernel)
  exact written c special noQuote

/-- One token is written for every character but the double quote. -/
theorem isToken_escapeChar (noQuote : c ≠ '"') : IsToken (escapeChar c) := by
  by_cases special : c ∈ specials
  · exact .command (escapeChar_mem_commands special noQuote)
  · rw [escapeChar_of_inert special]
    exact .inert special

/-- No command is a character that is written as it is. -/
theorem escapeChar_ne_of_inert (special : c ∈ specials) (noQuote : c ≠ '"') (inert : d ∉ specials) :
    escapeChar c ≠ escapeChar d := by
  intro same
  have mem := escapeChar_mem_commands special noQuote
  rw [same, escapeChar_of_inert inert] at mem
  exact inert (head_special_of_command mem)

theorem eq_of_escapeChar_eq (left : c ≠ '"') (right : d ≠ '"')
    (same : escapeChar c = escapeChar d) : c = d := by
  by_cases special : c ∈ specials <;> by_cases special' : d ∈ specials
  · have apart : ∀ c ∈ specials, ∀ d ∈ specials, c ≠ '"' → d ≠ '"' →
        escapeChar c = escapeChar d → c = d := by
      simp only [← List.all_iff_forall_prop]
      decide +kernel
    exact apart c special d special' left right same
  · exact absurd same (escapeChar_ne_of_inert special left special')
  · exact absurd same.symm (escapeChar_ne_of_inert special' right special)
  · rw [escapeChar_of_inert special, escapeChar_of_inert special'] at same
    exact (List.cons.inj same).1

theorem eq_of_map_escapeChar_eq (left : ∀ c ∈ s, c ≠ '"') (right : ∀ c ∈ t, c ≠ '"')
    (same : s.map escapeChar = t.map escapeChar) : s = t := by
  induction s generalizing t with
  | nil => exact (List.map_eq_nil_iff.1 same.symm).symm
  | cons c s ih =>
    rcases t with _ | ⟨d, t⟩
    · cases same
    · obtain ⟨noQuote, inLeft⟩ := List.forall_mem_cons.1 left
      obtain ⟨noQuote', inRight⟩ := List.forall_mem_cons.1 right
      obtain ⟨first, rest⟩ := List.cons.inj same
      rw [eq_of_escapeChar_eq noQuote noQuote' first, ih inLeft inRight rest]

/-! ## What is written for a text -/

/-- The characters of a text, with two single quotes in the place of each double quote. -/
def singleQuoted (s : List Char) : List Char :=
  s.flatMap fun c => if c = '"' then ['\'', '\''] else [c]

/-- The text with two single quotes in the place of each double quote. -/
def withSingleQuotes (s : String) : String := String.ofList (singleQuoted s.toList)

theorem ne_quote_of_mem_singleQuoted (mem : c ∈ singleQuoted s) : c ≠ '"' := by
  obtain ⟨d, -, among⟩ := List.mem_flatMap.1 mem
  split at among
  · rintro rfl
    exact absurd among (by decide)
  · next noQuote =>
    rw [List.mem_singleton.1 among]
    exact noQuote

/-- The tokens of which escaped text is made. -/
def written (s : String) : List (List Char) := (singleQuoted s.toList).map escapeChar

theorem isToken_of_mem_written {text : String} (mem : a ∈ written text) : IsToken a := by
  obtain ⟨c, among, rfl⟩ := List.mem_map.1 mem
  exact isToken_escapeChar (ne_quote_of_mem_singleQuoted among)

theorem flatten_written (text : String) : (written text).flatten = (escape text).toList := by
  rw [written, escape, String.toList_ofList, singleQuoted]
  induction text.toList with
  | nil => rfl
  | cons c s ih =>
    rw [List.flatMap_cons, List.map_append, List.flatten_append, ih, List.flatMap_cons]
    congr 1
    by_cases quote : c = '"'
    · subst quote
      rfl
    · rw [if_neg quote, List.map_singleton, List.flatten_singleton]

/-- Texts are escaped alike if they differ in nothing but their quotes. -/
theorem escape_eq_iff (text other : String) :
    escape text = escape other ↔ withSingleQuotes text = withSingleQuotes other := by
  have tokens : escape text = escape other ↔ written text = written other := by
    rw [← String.toList_inj, ← flatten_written, ← flatten_written]
    constructor
    · exact eq_of_flatten_eq (fun _ => isToken_of_mem_written) fun _ => isToken_of_mem_written
    · exact congrArg List.flatten
  rw [tokens, withSingleQuotes, withSingleQuotes, String.ofList_inj]
  constructor
  · exact eq_of_map_escapeChar_eq (fun _ => ne_quote_of_mem_singleQuoted)
      fun _ => ne_quote_of_mem_singleQuoted
  · exact congrArg (List.map escapeChar)

/-- Escaped text is a row of tokens in just one way, and every special character in it belongs to a
command of this row. Two texts are escaped alike if and only if they are the same with two single
quotes for each double quote. -/
theorem escape_loses_nothing :
    (∀ text : String, ∃! tokens : List (List Char),
      (∀ token ∈ tokens, IsToken token) ∧ (escape text).toList = tokens.flatten) ∧
    (∀ (text : String) (before after : List Char) (c : Char),
      (escape text).toList = before ++ c :: after → c ∈ specials →
        ∃ (x y : List Char) (earlier later : List (List Char)),
          (∀ token ∈ earlier ++ later, IsToken token) ∧ x ++ c :: y ∈ commands ∧
          before = earlier.flatten ++ x ∧ after = y ++ later.flatten) ∧
    ∀ text other : String,
      escape text = escape other ↔ withSingleQuotes text = withSingleQuotes other := by
  refine ⟨fun text => ?_, fun text before after c whole special => ?_, escape_eq_iff⟩
  · refine ⟨written text, ⟨fun _ => isToken_of_mem_written, (flatten_written text).symm⟩, ?_⟩
    rintro tokens ⟨areTokens, whole⟩
    rw [← flatten_written] at whole
    exact (eq_of_flatten_eq (fun _ => isToken_of_mem_written) areTokens whole).symm
  · rw [← flatten_written] at whole
    obtain ⟨earlier, x, y, later, row, rfl, rfl⟩ := exists_token_of_flatten whole
    have areTokens : ∀ token ∈ earlier ++ (x ++ c :: y) :: later, IsToken token := by
      rw [← row]
      exact fun _ => isToken_of_mem_written
    obtain ⟨inEarlier, here, inLater⟩ := by
      simpa only [List.forall_mem_append, List.forall_mem_cons] using areTokens
    refine ⟨x, y, earlier, later, List.forall_mem_append.2 ⟨inEarlier, inLater⟩, ?_, rfl, rfl⟩
    exact here.mem_commands special

/-- A path in quotes. The braces of the first command in it belong to that command. -/
theorem escape_loses_nothing_quotedPath :
    (escape "\"C:\\my_50%\"").toList =
        "''C:\\textbackslash".toList ++ '{' :: "\x7dmy\\_50\\%''".toList ∧
      '{' ∈ specials ∧
      (∃ (x y : List Char) (earlier later : List (List Char)),
        (∀ token ∈ earlier ++ later, IsToken token) ∧ x ++ '{' :: y ∈ commands ∧
        "''C:\\textbackslash".toList = earlier.flatten ++ x ∧
        "\x7dmy\\_50\\%''".toList = y ++ later.flatten) ∧
      escape "\"C:\\my_50%\"" = escape "''C:\\my_50%''" := by
  obtain ⟨-, belongs, same⟩ := escape_loses_nothing
  have whole : (escape "\"C:\\my_50%\"").toList =
      "''C:\\textbackslash".toList ++ '{' :: "\x7dmy\\_50\\%''".toList := by decide +kernel
  exact ⟨whole, by decide, belongs _ _ _ _ whole (by decide), (same _ _).2 (by decide +kernel)⟩

end Longform.Latex
