/-
Module: LineScript.Proofs.Grammar
Purpose: The grammar of the language as a table of productions, and what the table derives.
Trusted boundary: the table of productions is the grammar that the theorems speak of; it is to be
  read against the description of the language.
Main exports: Symbol, Phrase, rule, Derives, Reads
-/
import LineScript.Token

/-!
The grammar is data: `Grammar.rule` gives the right side of every production over kinds of tokens.
`Derives` says which lists of kinds a phrase stands for, without saying how they are found. A parser
meets a phrase at the front of a longer list, so proofs work with `Reads`, which relates the kinds
in front of a phrase to those behind it.
-/

namespace LineScript.Grammar

/-- The parts of a program that have a production of their own. -/
inductive Symbol where
  | program
  | declaration
  | declarator
  | statement
  | conditional
  /-- The statements between the lines `START` and `END` of a form. -/
  | block (form : TokenKind)
  | expression
  | disjunction
  | conjunction
  | equality
  | comparison
  | sum
  | product
  | factor
  deriving DecidableEq, Repr, Inhabited

/-- What may stand on the right side of a production. -/
inductive Phrase where
  | word (kind : TokenKind)
  | part (symbol : Symbol)
  /-- All phrases, one after the other. -/
  | all (phrases : List Phrase)
  /-- One of the phrases. -/
  | any (phrases : List Phrase)
  /-- The phrase any number of times. -/
  | many (phrase : Phrase)
  deriving Repr, Inhabited

namespace Phrase

/-- A single token of one of some kinds. -/
def oneOf (kinds : List TokenKind) : Phrase := .any (kinds.map .word)

/-- The phrase, or nothing. -/
def optional (phrase : Phrase) : Phrase := .any [.all [], phrase]

/-- Any number of blank lines. -/
def blank : Phrase := .many (.word .newline)

/-- Operands with operators between them. -/
def chain (operators : List TokenKind) (operand : Symbol) : Phrase :=
  .all [.part operand, .many (.all [oneOf operators, .part operand])]

/-- Some items with commas between them. -/
def list (item : Phrase) : Phrase := .all [item, .many (.all [.word .comma, item])]

/-- Some lines of one sort with blank lines behind them. -/
def lines (line : Symbol) : Phrase := .many (.all [.part line, blank])

/-- A condition in parentheses that ends its line. -/
def condition : Phrase :=
  .all [.word .leftParen, .part .expression, .word .rightParen, .word .newline]

/-- A block that ends its line. -/
def blockLine (form : TokenKind) : Phrase := .all [.part (.block form), .word .newline]

end Phrase

/-- The operators in front of a factor. -/
def signs : List TokenKind := [.notWord, .minus, .plus]

/-- The tokens that are a factor by themselves. -/
def atoms : List TokenKind :=
  [.integerLiteral, .floatLiteral, .stringLiteral, .charLiteral, .trueWord, .falseWord, .nullWord,
    .dollar, .identifier]

open Phrase in
/-- The productions of the language. -/
def rule : Symbol → Phrase
  | .program => .all [
      blank, .word .scriptWord, .word .areaWord, .word .newline,
      blank, .word .startWord, .word .scriptWord, .word .newline,
      blank, lines .declaration, lines .statement,
      .word .endWord, .word .scriptWord, blank, .word .eof]
  | .declaration => .all [
      .word .declareWord, oneOf (VarType.all.map .typeName), list (.part .declarator),
      .word .newline]
  | .declarator => .all [
      .word .identifier, optional (.all [.word .equal, .part .expression])]
  | .statement => .any [
      .all [.word .printWord, .word .colon, .part .expression, .word .newline],
      .all [.word .scanWord, .word .colon, list (.word .identifier), .word .newline],
      .all [.part .expression, .word .newline],
      .part .conditional,
      .all [.word .repeatWord, .word .whenWord, condition, blockLine .repeatWord],
      .all [.word .forWord, .word .leftParen, optional (.part .expression), .word .comma,
        optional (.part .expression), .word .comma, optional (.part .expression),
        .word .rightParen, .word .newline, blockLine .forWord]]
  | .conditional => .all [
      .word .ifWord, condition, blockLine .ifWord, blank,
      optional (.all [.word .elseWord,
        .any [.part .conditional, .all [.word .newline, blockLine .ifWord]]])]
  | .block form => .all [
      blank, .word .startWord, .word form, .word .newline,
      blank, lines .statement, .word .endWord, .word form]
  | .expression => .any [
      .all [.word .identifier, .word .equal, .part .expression],
      .part .disjunction]
  | .disjunction => chain [.orWord] .conjunction
  | .conjunction => chain [.andWord] .equality
  | .equality => chain [.equalEqual, .notEqual] .comparison
  | .comparison => chain [.greater, .greaterEqual, .less, .lessEqual] .sum
  | .sum => chain [.plus, .minus, .concat, .modulo] .product
  | .product => chain [.star, .slash] .factor
  | .factor => .any [
      .all [oneOf signs, .part .factor],
      oneOf atoms,
      .all [.word .leftParen, .part .expression, .word .rightParen]]

/-- The lists of kinds that a phrase stands for. -/
inductive Derives : Phrase → List TokenKind → Prop where
  | word (kind : TokenKind) : Derives (.word kind) [kind]
  | part {symbol : Symbol} {kinds : List TokenKind}
      (production : Derives (rule symbol) kinds) : Derives (.part symbol) kinds
  | allNil : Derives (.all []) []
  | allCons {phrase : Phrase} {phrases : List Phrase} {first second : List TokenKind}
      (head : Derives phrase first) (tail : Derives (.all phrases) second) :
      Derives (.all (phrase :: phrases)) (first ++ second)
  | any {phrase : Phrase} {phrases : List Phrase} {kinds : List TokenKind}
      (chosen : phrase ∈ phrases) (derivation : Derives phrase kinds) :
      Derives (.any phrases) kinds
  | manyNil {phrase : Phrase} : Derives (.many phrase) []
  | manyCons {phrase : Phrase} {first second : List TokenKind}
      (head : Derives phrase first) (tail : Derives (.many phrase) second) :
      Derives (.many phrase) (first ++ second)

/-- A phrase stands at the front of the kinds `start`, and `rest` is what follows it. -/
def Reads (phrase : Phrase) (start rest : List TokenKind) : Prop :=
  ∃ kinds, Derives phrase kinds ∧ start = kinds ++ rest

/-- Deriving a list is reading all of it. -/
theorem derives_iff_reads_nil {phrase : Phrase} {kinds : List TokenKind} :
    Derives phrase kinds ↔ Reads phrase kinds [] := by
  constructor
  · intro derivation
    exact ⟨kinds, derivation, (List.append_nil kinds).symm⟩
  · rintro ⟨found, derivation, rfl⟩
    rwa [List.append_nil]

/-- A phrase never lengthens what is left. -/
theorem Reads.length_le {phrase : Phrase} {start rest : List TokenKind}
    (reads : Reads phrase start rest) : rest.length ≤ start.length := by
  obtain ⟨kinds, _, rfl⟩ := reads
  rw [List.length_append]
  exact Nat.le_add_left _ _

/-! ### Each form of phrase, read from the front

These equivalences are all that later proofs know about `Derives`. -/

/-- A word is read off the front. -/
@[simp] theorem reads_word {kind : TokenKind} {start rest : List TokenKind} :
    Reads (.word kind) start rest ↔ start = kind :: rest := by
  constructor
  · rintro ⟨kinds, derivation, rfl⟩
    cases derivation
    rfl
  · rintro rfl
    exact ⟨[kind], .word kind, rfl⟩

/-- A symbol is read as its rule says. -/
theorem reads_part {symbol : Symbol} {start rest : List TokenKind} :
    Reads (.part symbol) start rest ↔ Reads (rule symbol) start rest := by
  constructor
  · rintro ⟨kinds, derivation, rfl⟩
    cases derivation with
    | part production => exact ⟨kinds, production, rfl⟩
  · rintro ⟨kinds, production, rfl⟩
    exact ⟨kinds, .part production, rfl⟩

/-- The empty sequence reads nothing. -/
@[simp] theorem reads_all_nil {start rest : List TokenKind} :
    Reads (.all []) start rest ↔ start = rest := by
  constructor
  · rintro ⟨kinds, derivation, rfl⟩
    cases derivation
    rfl
  · rintro rfl
    exact ⟨[], .allNil, rfl⟩

/-- A sequence reads its first phrase and goes on behind it. -/
@[simp] theorem reads_all_cons {phrase : Phrase} {phrases : List Phrase}
    {start rest : List TokenKind} :
    Reads (.all (phrase :: phrases)) start rest ↔
      ∃ middle, Reads phrase start middle ∧ Reads (.all phrases) middle rest := by
  constructor
  · rintro ⟨kinds, derivation, rfl⟩
    cases derivation with
    | @allCons _ _ first second head tail =>
      refine ⟨second ++ rest, ⟨first, head, ?_⟩, ⟨second, tail, rfl⟩⟩
      rw [List.append_assoc]
  · rintro ⟨_, ⟨first, head, rfl⟩, ⟨second, tail, rfl⟩⟩
    exact ⟨first ++ second, .allCons head tail, by rw [List.append_assoc]⟩

/-- Sequences one behind the other are one sequence. -/
theorem reads_all_append (first : List Phrase) {second : List Phrase} {start rest : List TokenKind} :
    Reads (.all (first ++ second)) start rest ↔
      ∃ middle, Reads (.all first) start middle ∧ Reads (.all second) middle rest := by
  induction first generalizing start with
  | nil => simp
  | cons phrase phrases inductionHypothesis =>
    rw [List.cons_append, reads_all_cons]
    constructor
    · rintro ⟨behind, head, tail⟩
      obtain ⟨middle, front, back⟩ := inductionHypothesis.mp tail
      exact ⟨middle, reads_all_cons.mpr ⟨behind, head, front⟩, back⟩
    · rintro ⟨middle, front, back⟩
      obtain ⟨behind, head, tail⟩ := reads_all_cons.mp front
      exact ⟨behind, head, inductionHypothesis.mpr ⟨middle, tail, back⟩⟩

/-- A sequence inside a sequence. -/
theorem reads_all_all {first second : List Phrase} {start rest : List TokenKind} :
    Reads (.all (.all first :: second)) start rest ↔ Reads (.all (first ++ second)) start rest := by
  rw [reads_all_cons, reads_all_append]

/-- An alternative is read if one of its phrases is. -/
@[simp] theorem reads_any {phrases : List Phrase} {start rest : List TokenKind} :
    Reads (.any phrases) start rest ↔ ∃ phrase ∈ phrases, Reads phrase start rest := by
  constructor
  · rintro ⟨kinds, derivation, rfl⟩
    cases derivation with
    | any chosen derivation => exact ⟨_, chosen, kinds, derivation, rfl⟩
  · rintro ⟨phrase, chosen, kinds, derivation, rfl⟩
    exact ⟨kinds, .any chosen derivation, rfl⟩

/-- A repetition may be over at once. -/
theorem Reads.many_nil {phrase : Phrase} (rest : List TokenKind) :
    Reads (.many phrase) rest rest :=
  ⟨[], .manyNil, rfl⟩

/-- A repetition may take one round more in front. -/
theorem Reads.many_cons {phrase : Phrase} {start middle rest : List TokenKind}
    (head : Reads phrase start middle) (tail : Reads (.many phrase) middle rest) :
    Reads (.many phrase) start rest := by
  obtain ⟨first, headDerives, rfl⟩ := head
  obtain ⟨second, tailDerives, rfl⟩ := tail
  exact ⟨first ++ second, .manyCons headDerives tailDerives, by rw [List.append_assoc]⟩

/-- Induction along the repetitions of a phrase. -/
theorem Reads.many_rec {phrase : Phrase} {rest : List TokenKind}
    {motive : List TokenKind → Prop} (none : motive rest)
    (more : ∀ {start middle}, Reads phrase start middle → Reads (.many phrase) middle rest →
      motive middle → motive start)
    {start : List TokenKind} (reads : Reads (.many phrase) start rest) : motive start := by
  obtain ⟨kinds, derivation, rfl⟩ := reads
  generalize shape : Phrase.many phrase = repeated at derivation
  induction derivation with
  | manyNil => exact none
  | @manyCons _ first second head tail _ tailInduction =>
    cases shape
    rw [List.append_assoc]
    exact more ⟨first, head, rfl⟩ ⟨second, tail, rfl⟩ (tailInduction rfl)
  | word | part | allNil | allCons | any => cases shape

/-- One word out of several. -/
theorem reads_oneOf {kinds : List TokenKind} {start rest : List TokenKind} :
    Reads (.oneOf kinds) start rest ↔ ∃ kind ∈ kinds, start = kind :: rest := by
  rw [Phrase.oneOf, reads_any]
  constructor
  · rintro ⟨phrase, chosen, reads⟩
    obtain ⟨kind, member, rfl⟩ := List.mem_map.mp chosen
    exact ⟨kind, member, reads_word.mp reads⟩
  · rintro ⟨kind, member, rfl⟩
    exact ⟨.word kind, List.mem_map_of_mem member, reads_word.mpr rfl⟩

/-- Repetitions one behind the other are one repetition. -/
theorem Reads.many_append {phrase : Phrase} {start middle rest : List TokenKind}
    (first : Reads (.many phrase) start middle) (second : Reads (.many phrase) middle rest) :
    Reads (.many phrase) start rest := by
  refine Reads.many_rec (motive := fun kinds => Reads (.many phrase) kinds rest) second ?_ first
  intro kinds behind head _ tail
  exact Reads.many_cons head tail

/-- Blank lines behind some lines belong to those lines. -/
theorem Reads.lines_blank {line : Symbol} {start front middle rest : List TokenKind}
    (before : Reads .blank start front) (reads : Reads (.lines line) front middle)
    (behind : Reads .blank middle rest) :
    ∃ moved, Reads .blank start moved ∧ Reads (.lines line) moved rest := by
  revert start
  refine Reads.many_rec (motive := fun kinds => ∀ {start}, Reads .blank start kinds →
    ∃ moved, Reads .blank start moved ∧ Reads (.lines line) moved rest) ?_ ?_ reads
  · intro start before
    exact ⟨rest, before.many_append behind, Reads.many_nil rest⟩
  · intro kinds next head _ inductionHypothesis start before
    simp only [reads_all_cons, reads_all_nil] at head
    obtain ⟨ended, first, _, blanks, rfl⟩ := head
    obtain ⟨moved, skipped, others⟩ := inductionHypothesis blanks
    refine ⟨kinds, before, Reads.many_cons ?_ others⟩
    simp only [reads_all_cons, reads_all_nil]
    exact ⟨ended, first, moved, skipped, rfl⟩

/-- What is optional is left out or read. -/
theorem reads_optional {phrase : Phrase} {start rest : List TokenKind} :
    Reads (.optional phrase) start rest ↔ start = rest ∨ Reads phrase start rest := by
  simp [Phrase.optional]

end LineScript.Grammar
