/-
Module: LineScript.Proofs.InputLines
Purpose: What a statement that reads a line of input takes from it, and what it stores.
Trusted boundary: none
Main exports: Text.BeginsWith, Input.read?, ScanEnds, Stmt.scan_effects
-/
import LineScript.Proofs.OutputFrame
import LineScript.Proofs.SuccessiveStores

/-!
A statement that reads variables takes one line from the input, whatever becomes of that line; only
an input with nothing left stays as it is. The line is rejected as a whole if it does not lex or
does not hold one value for each variable. Otherwise its values are stored one after the other, and
the ones in front of the first refused value stay stored.
-/

namespace LineScript

/-! ### Lines -/

namespace Text

/-- The first line of a text, its newline included, and what is behind it. The last line of a text
may have no newline, but then it is not empty. -/
inductive BeginsWith : List Char → List Char → List Char → Prop where
  | closed {line : List Char} (rest : List Char) (oneLine : '\n' ∉ line) :
      BeginsWith (line ++ ['\n']) rest (line ++ '\n' :: rest)
  | last {line : List Char} (oneLine : '\n' ∉ line) (something : line ≠ []) :
      BeginsWith line [] line

variable {line rest text : List Char}

theorem BeginsWith.nonempty (begins : BeginsWith line rest text) : text ≠ [] := by
  cases begins with
  | closed rest oneLine => simp
  | last oneLine something => exact something

/-- A text that begins with a line gives that line and keeps the rest. -/
theorem BeginsWith.nextLine_eq (begins : BeginsWith line rest text) :
    nextLine text = (line, rest) := by
  cases begins with
  | closed rest oneLine => exact nextLine_line oneLine rest
  | last oneLine something =>
    have whole : line.dropWhile (· != '\n') = [] := by
      rw [List.dropWhile_eq_nil_iff]
      exact fun char member => bne_iff_ne.mpr (ne_of_mem_of_not_mem member oneLine)
    rw [nextLine, whole]

/-- Every text that is not empty begins with a line. -/
theorem exists_beginsWith (something : text ≠ []) : ∃ line rest, BeginsWith line rest text := by
  by_cases broken : '\n' ∈ text
  · obtain ⟨line, rest, rfl, oneLine⟩ := List.eq_append_cons_of_mem broken
    exact ⟨_, rest, .closed rest oneLine⟩
  · exact ⟨text, [], .last broken something⟩

end Text

/-- The values of a line of input, which has some only if it lexes. -/
def Input.read? (line : List Char) : Option (List Value) :=
  let lexed := lexChars (Text.dropLineEnd line)
  if lexed.errors.isEmpty then some (values false lexed.tokens) else none

/-- The machine with only some of its input left. -/
def Machine.leaving (rest : List Char) (machine : Machine) : Machine :=
  { machine with input := { machine.input with unread := rest } }

/-! ### Reading a line -/

/-- How a statement that reads some variables ends. -/
inductive ScanEnds (first : Token) (others : List Token) (machine : Machine) :
    EStateM.Result Stop Machine Unit → Prop where
  /-- Nothing is left of the input. -/
  | exhausted (nothing : machine.input.unread = []) (finite : machine.input.interrupts = false) :
      ScanEnds first others machine (.error (.error ⟨.inputExhausted, some first⟩) machine)
  /-- Instead of finding the end of the input, the user interrupts the program. -/
  | interrupted (nothing : machine.input.unread = [])
      (interrupts : machine.input.interrupts = true) :
      ScanEnds first others machine (.error (.breakdown .interrupted) machine)
  /-- The line does not lex. -/
  | unreadable {line rest : List Char} (begins : Text.BeginsWith line rest machine.input.unread)
      (rejected : Input.read? line = none) :
      ScanEnds first others machine
        (.error (.error ⟨.inputFormat (String.ofList (Text.dropLineEnd line)), some first⟩)
          (machine.leaving rest))
  /-- The line holds more or fewer values than there are variables. -/
  | miscounted {line rest : List Char} {values : List Value}
      (begins : Text.BeginsWith line rest machine.input.unread)
      (read : Input.read? line = some values)
      (different : values.length ≠ (first :: others).length) :
      ScanEnds first others machine
        (.error (.error ⟨.inputArity (first :: others).length values.length, some first⟩)
          (machine.leaving rest))
  /-- A value does not fit its variable. The values in front of it are stored, and the error is the
  one of storing this value alone. -/
  | refused {line rest : List Char} {values : List Value} {earlier later : List (Token × Value)}
      {name : Token} {value : Value} {after : Scopes} {error : RuntimeError}
      (begins : Text.BeginsWith line rest machine.input.unread)
      (read : Input.read? line = some values)
      (counted : values.length = (first :: others).length)
      (split : (first :: others).zip values = earlier ++ (name, value) :: later)
      (stores : Scopes.Stores earlier machine.scopes after)
      (received : Scopes.ReceivedEach earlier machine.scopes after)
      (failed : after.assign name (some value) = .error error)
      (alone : machine.scopes.assign name (some value) = .error error) :
      ScanEnds first others machine
        (.error (.error error) { machine.leaving rest with scopes := after })
  /-- All values are stored. -/
  | stored {line rest : List Char} {values : List Value} {after : Scopes}
      (begins : Text.BeginsWith line rest machine.input.unread)
      (read : Input.read? line = some values)
      (counted : values.length = (first :: others).length)
      (stores : Scopes.Stores ((first :: others).zip values) machine.scopes after)
      (received : Scopes.ReceivedEach ((first :: others).zip values) machine.scopes after) :
      ScanEnds first others machine (.ok () { machine.leaving rest with scopes := after })

namespace Run

variable {first : Token} {others : List Token} {machine : Machine} {line rest : List Char}
  {values : List Value}

/-- Where the input is used up, asking for a line fails, or it is the user who interrupts. -/
theorem nextLine_nothing (nothing : machine.input.unread = []) (token : Token) :
    nextLine token machine =
      .error (if machine.input.interrupts then .breakdown .interrupted
        else .error ⟨.inputExhausted, some token⟩) machine := by
  rw [nextLine, if_pos nothing]

/-- Where a line is there, it is taken off the input whole. -/
theorem nextLine_of_beginsWith (begins : Text.BeginsWith line rest machine.input.unread)
    (token : Token) : nextLine token machine = .ok line (machine.leaving rest) := by
  rw [nextLine, if_neg begins.nonempty, begins.nextLine_eq]
  rfl

theorem readValues_nothing (nothing : machine.input.unread = []) (token : Token) :
    readValues token machine =
      .error (if machine.input.interrupts then .breakdown .interrupted
        else .error ⟨.inputExhausted, some token⟩) machine := by
  rw [readValues, Action.bind_of_error (nextLine_nothing nothing token)]

/-- A line that cannot be read is quoted without its end, and it has been taken off the input all
the same. -/
theorem readValues_of_none (begins : Text.BeginsWith line rest machine.input.unread)
    (rejected : Input.read? line = none) (token : Token) :
    readValues token machine =
      .error (.error ⟨.inputFormat (String.ofList (Text.dropLineEnd line)), some token⟩)
        (machine.leaving rest) := by
  rw [readValues, Action.bind_of_ok (nextLine_of_beginsWith begins token)]
  simp only [Input.read?, ite_eq_right_iff, reduceCtorEq, imp_false] at rejected
  simp only [if_neg rejected]
  rfl

/-- A line that can be read gives its values. -/
theorem readValues_of_some (begins : Text.BeginsWith line rest machine.input.unread)
    (read : Input.read? line = some values) (token : Token) :
    readValues token machine = .ok values (machine.leaving rest) := by
  rw [readValues, Action.bind_of_ok (nextLine_of_beginsWith begins token)]
  simp only [Input.read?, Option.ite_none_right_eq_some, Option.some.injEq] at read
  obtain ⟨lexes, rfl⟩ := read
  simp only [if_pos lexes]
  rfl

/-- A line with one value for each variable has its values stored. -/
theorem scan_of_counted (begins : Text.BeginsWith line rest machine.input.unread)
    (read : Input.read? line = some values)
    (counted : values.length = (first :: others).length) :
    scan first others machine =
      assignEach ((first :: others).zip values) (machine.leaving rest) := by
  rw [scan, Action.bind_of_ok (readValues_of_some begins read first), if_pos counted]

/-- Each ending of the description is what the statement does. -/
theorem scan_of_ends {result : EStateM.Result Stop Machine Unit}
    (ends : ScanEnds first others machine result) : scan first others machine = result := by
  cases ends with
  | exhausted nothing finite =>
    rw [scan, Action.bind_of_error (readValues_nothing nothing first), finite]
    rfl
  | interrupted nothing interrupts =>
    rw [scan, Action.bind_of_error (readValues_nothing nothing first), interrupts]
    rfl
  | unreadable begins rejected =>
    rw [scan, Action.bind_of_error (readValues_of_none begins rejected first)]
  | miscounted begins read different =>
    rw [scan, Action.bind_of_ok (readValues_of_some begins read first), if_neg different]
    rfl
  | @refused _ rest _ earlier later name value _ _ begins read counted split stores _ failed =>
    have refuses : Scopes.Refuses _ (machine.leaving rest).scopes _ _ :=
      ⟨earlier, name, value, later, split, stores, failed⟩
    rw [scan_of_counted begins read counted, assignEach_of_refuses refuses]
  | @stored _ rest _ _ begins read counted stores =>
    have later : Scopes.Stores _ (machine.leaving rest).scopes _ := stores
    rw [scan_of_counted begins read counted, assignEach_of_stores later]

/-- The description covers all cases. -/
theorem exists_scanEnds (first : Token) (others : List Token) (machine : Machine) :
    ∃ result, ScanEnds first others machine result := by
  by_cases nothing : machine.input.unread = []
  · cases interrupts : machine.input.interrupts with
    | true => exact ⟨_, .interrupted nothing interrupts⟩
    | false => exact ⟨_, .exhausted nothing interrupts⟩
  · obtain ⟨line, rest, begins⟩ := Text.exists_beginsWith nothing
    cases read : Input.read? line with
    | none => exact ⟨_, .unreadable begins read⟩
    | some values =>
      by_cases counted : values.length = (first :: others).length
      · rcases Scopes.stores_or_refuses ((first :: others).zip values) machine.scopes with
          ⟨after, stores⟩ | ⟨after, error, earlier, name, value, later, split, stores, failed⟩
        · exact ⟨_, .stored begins read counted stores stores.receivedEach⟩
        · have alone := (Scopes.assign_eq_error_congr (stores.type_find? _)).mp failed
          exact ⟨_, .refused begins read counted split stores stores.receivedEach failed alone⟩
      · exact ⟨_, .miscounted begins read counted⟩

end Run

/-- A statement that reads variables ends in exactly one of six ways. If nothing is left of the
input, nothing changes. Otherwise one line is taken. If it does not lex or holds another number of
values, all variables keep what they hold; if it holds one value for each, these are stored one
after the other up to the first one that is refused. The innermost variable of each name then holds
the last value stored in it, converted to a value of its own type; all other variables, those that it
hides included, hold what they held. -/
theorem Stmt.scan_effects (first : Token) (others : List Token) (fuel : Nat) (machine : Machine)
    (result : EStateM.Result Stop Machine Unit) :
    (Stmt.scan first others).exec fuel machine = result ↔ ScanEnds first others machine result := by
  rw [exec]
  constructor
  · rintro rfl
    obtain ⟨result, ends⟩ := Run.exists_scanEnds first others machine
    exact Run.scan_of_ends ends ▸ ends
  · exact Run.scan_of_ends

/-- A line with a number, a word and a number for three variables, the second of which holds truth
values. -/
def refusedWord : Machine :=
  ⟨⟨⟨[("a", ⟨.int, none⟩), ("b", ⟨.bool, some (.bool true)⟩), ("c", ⟨.int, some (.int 0)⟩)]⟩, []⟩,
    ⟨"7 maybe 9".toList ++ '\n' :: "8".toList, false⟩, ""⟩

/-- The number in front of the word is stored, the one behind it is not, and the line is taken. -/
theorem refusedWord_effects :
    let a : Token := ⟨.identifier, "a", none, ⟨6, 7⟩⟩
    let b : Token := ⟨.identifier, "b", none, ⟨6, 10⟩⟩
    let c : Token := ⟨.identifier, "c", none, ⟨6, 13⟩⟩
    ∃ after : Scopes, after.find? "a" = some ⟨.int, some (.int 7)⟩ ∧
      after.find? "b" = some ⟨.bool, some (.bool true)⟩ ∧
      after.find? "c" = some ⟨.int, some (.int 0)⟩ ∧
      (Stmt.scan a [b, c]).exec 0 refusedWord =
        .error (.error ⟨.typeMismatch "b" .bool .string, some b⟩)
          { refusedWord.leaving ['8'] with scopes := after } := by
  intro a b c
  let line := "7 maybe 9".toList
  have begins : Text.BeginsWith (line ++ ['\n']) ['8'] refusedWord.input.unread :=
    .closed _ (by decide)
  have read : Input.read? (line ++ ['\n']) = some [.int 7, .text "maybe", .int 9] := by
    decide +kernel
  let after := refusedWord.scopes.rebind "a" ⟨.int, some (.int 7)⟩
  have stores : Scopes.Stores [(a, .int 7)] refusedWord.scopes after := .cons rfl (.nil _)
  refine ⟨after, rfl, rfl, rfl, ?_⟩
  exact (Stmt.scan_effects a [b, c] 0 refusedWord _).mpr
    (.refused begins read rfl rfl stores stores.receivedEach rfl rfl)

end LineScript
