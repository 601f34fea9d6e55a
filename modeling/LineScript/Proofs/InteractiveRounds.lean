/-
Module: LineScript.Proofs.InteractiveRounds
Purpose: The rounds of an interactive session depend on the collected lines and the input only.
Trusted boundary: none
Main exports: Round, settle, Follows, interactFrom_bound, transcript_interactFrom
-/
import LineScript.Console
import LineScript.Proofs.OutputFrame

/-!
A round of an interactive session reads one line. It ends the session, collects the line, or runs
the program that the line closes. What a round does depends on the collected lines and the unread
input only, not on variables, reports or what was written before, since these are cleared away
before a program runs. So a session whose collected lines are used up goes on as one that has just
begun.
-/

namespace LineScript.Console

/-! ### Rounds -/

/-- What a round of an interactive session comes to. -/
inductive Round where
  | ended (ending : Ending) (session : Session)
  /-- The session goes on with the lines collected for the next program. -/
  | next (collected : List String) (session : Session)

/-- How a session ends behind a round, given how it goes on. -/
def Round.resume (goOn : List String → Session → Ending × Session) : Round → Ending × Session
  | .ended ending session => (ending, session)
  | .next collected session => goOn collected session

/-- What a program that was run comes to. -/
def settle (session : Session) : Outcome → Round
  | .skipped | .executed => .next [] (session.write "\n")
  | .broken .interrupted => .ended .interrupted (session.write interruption)
  | .broken cause => .ended (.broken cause) session
  | .outOfFuel => .ended .outOfFuel session

/-- What a line comes to, in the session behind it. -/
def take (fuel : Nat) (dump : Bool) (collected : List String) (line : List Char)
    (session : Session) : Round :=
  if collected.isEmpty && isLeave line then .ended (.status 0) session
  else
    let lines := collected ++ [String.ofList line]
    if isClosing line then
      let ran := session.clearLog.forget.run fuel dump (joinLines lines)
      settle ran.2 ran.1
    else .next lines session

/-- One round of an interactive session. -/
def round (fuel : Nat) (dump : Bool) (collected : List String) (session : Session) : Round :=
  let asked := session.write (prompt collected)
  match readLine? asked with
  | none =>
    if asked.machine.input.interrupts then .ended .interrupted (asked.write interruption)
    else .ended (.status 0) (asked.write "\n")
  | some (line, afterLine) => take fuel dump collected line afterLine

/-- A session is rounds, one after the other. -/
theorem interactFrom_succ (fuel : Nat) (dump : Bool) (bound : Nat) (collected : List String)
    (session : Session) :
    interactFrom fuel dump (bound + 1) collected session =
      (round fuel dump collected session).resume (interactFrom fuel dump bound) := by
  rw [interactFrom, round]
  dsimp only
  cases readLine? (session.write (prompt collected)) with
  | none =>
    dsimp only
    split
    · rfl
    · rfl
  | some read =>
    obtain ⟨line, afterLine⟩ := read
    dsimp only [take]
    split
    · rfl
    split
    · cases afterLine.clearLog.forget.run fuel dump (joinLines (collected ++ [String.ofList line]))
        with | mk outcome ran =>
      cases outcome with
      | broken cause => cases cause <;> rfl
      | _ => rfl
    · rfl

/-! ### Rounds forget what was before them -/

/-- The second session has the unread input of the first, and has written and echoed the given
texts before all that the first one has. Variables and reports may differ. -/
structure Follows (written echoed : String) (first second : Session) : Prop where
  input : second.machine.input = first.machine.input
  output : second.machine.output = written ++ first.machine.output
  errors : second.log.echoed = echoed ++ first.log.echoed

/-- The rounds end alike or go on with the same lines, in sessions of which one follows the
other. -/
inductive Round.Follows (written echoed : String) : Round → Round → Prop where
  | ended {first second : Session} (ending : Ending)
      (follows : Console.Follows written echoed first second) :
      Round.Follows written echoed (.ended ending first) (.ended ending second)
  | next {first second : Session} (collected : List String)
      (follows : Console.Follows written echoed first second) :
      Round.Follows written echoed (.next collected first) (.next collected second)

namespace Follows

variable {written echoed : String} {first second : Session}

theorem preceded (session : Session) :
    Follows written echoed session (session.preceded written echoed) :=
  ⟨rfl, rfl, rfl⟩

theorem write (follows : Follows written echoed first second) (text : String) :
    Follows written echoed (first.write text) (second.write text) := by
  refine ⟨follows.input, ?_, follows.errors⟩
  simp only [Session.write, Machine.write, follows.output, String.append_assoc]

/-- Without variables and reports, the second session is the first one with the texts in front. -/
theorem cleared (follows : Follows written echoed first second) :
    second.clearLog.forget = first.clearLog.forget.preceded written echoed := by
  obtain ⟨⟨scopes, input, output⟩, reports, errors⟩ := second
  obtain ⟨rfl, rfl, rfl⟩ := follows
  rfl

theorem settle (follows : Follows written echoed first second) (outcome : Outcome) :
    (settle first outcome).Follows written echoed (Console.settle second outcome) := by
  cases outcome with
  | skipped => exact .next [] (follows.write "\n")
  | executed => exact .next [] (follows.write "\n")
  | broken cause =>
    cases cause with
    | interrupted => exact .ended .interrupted (follows.write interruption)
    | _ => exact .ended _ follows
  | outOfFuel => exact .ended .outOfFuel follows

theorem take (follows : Follows written echoed first second) (fuel : Nat) (dump : Bool)
    (collected : List String) (line : List Char) :
    (take fuel dump collected line first).Follows written echoed
      (Console.take fuel dump collected line second) := by
  unfold Console.take
  split
  · exact .ended _ follows
  dsimp only
  split
  · rw [follows.cleared, Session.run_preceded]
    exact (preceded _).settle _
  · exact .next _ follows

theorem round (follows : Follows written echoed first second) (fuel : Nat) (dump : Bool)
    (collected : List String) :
    (round fuel dump collected first).Follows written echoed
      (Console.round fuel dump collected second) := by
  have asked := follows.write (prompt collected)
  unfold Console.round readLine?
  dsimp only
  rw [asked.input]
  cases (first.write (prompt collected)).machine.input.unread with
  | nil =>
    dsimp only
    split
    · exact .ended _ (asked.write _)
    · exact .ended _ (asked.write _)
  | cons char rest =>
    apply take
    exact ⟨rfl, asked.output, asked.errors⟩

end Follows

/-- What is shown of a session that has ended. -/
def transcript (ended : Ending × Session) : Result :=
  Result.ofSession ended.1 ended.2

/-- What was shown, with texts in front. -/
def Result.preceded (written echoed : String) (result : Result) : Result :=
  { result with output := written ++ result.output, errors := echoed ++ result.errors }

theorem Follows.ofSession {written echoed : String} {first second : Session}
    (follows : Follows written echoed first second) (ending : Ending) :
    Result.ofSession ending second = (Result.ofSession ending first).preceded written echoed := by
  simp only [Result.ofSession, Result.preceded, follows.output, follows.errors]

/-- However many rounds there are, all that is shown is shown behind what was written before. -/
theorem Follows.interactFrom {written echoed : String} {first second : Session}
    (follows : Follows written echoed first second) (fuel : Nat) (dump : Bool) (bound : Nat)
    (collected : List String) :
    transcript (interactFrom fuel dump bound collected second) =
      (transcript (Console.interactFrom fuel dump bound collected first)).preceded written
        echoed := by
  induction bound generalizing collected first second with
  | zero => exact follows.ofSession .outOfFuel
  | succ bound inductionHypothesis =>
    have alike := follows.round fuel dump collected
    rw [interactFrom_succ, interactFrom_succ]
    generalize Console.round fuel dump collected first = one at alike ⊢
    generalize Console.round fuel dump collected second = two at alike ⊢
    cases alike with
    | ended ending last => exact last.ofSession ending
    | next lines later => exact inductionHypothesis later lines

/-! ### The bound on rounds -/

theorem readLine?_unread {session later : Session} {line : List Char}
    (read : readLine? session = some (line, later)) :
    later.machine.input.unread.length < session.machine.input.unread.length := by
  unfold readLine? at read
  split at read
  · cases read
  · rename_i nonempty
    cases read
    exact Text.nextLine_length nonempty

/-- Only a program that was run to an end lets the session go on. -/
theorem settle_next {session later : Session} {outcome : Outcome} {lines : List String}
    (goesOn : settle session outcome = .next lines later) : later = session.write "\n" := by
  unfold settle at goesOn
  split at goesOn <;> cases goesOn <;> rfl

/-- A round that is not the last one takes something from the input. -/
theorem round_unread {fuel : Nat} {dump : Bool} {collected lines : List String}
    {session later : Session} (goesOn : round fuel dump collected session = .next lines later) :
    later.machine.input.unread.length < session.machine.input.unread.length := by
  unfold round at goesOn
  dsimp only at goesOn
  split at goesOn
  · split at goesOn <;> cases goesOn
  rename_i line afterLine read
  have taken := readLine?_unread read
  refine Nat.lt_of_le_of_lt ?_ taken
  unfold take at goesOn
  split at goesOn
  · cases goesOn
  dsimp only at goesOn
  split at goesOn
  · have left := afterLine.clearLog.forget.unread_run_suffix fuel dump
      (joinLines (collected ++ [String.ofList line]))
    rw [settle_next goesOn]
    exact left.length_le
  · cases goesOn
    exact Nat.le_refl _

/-- Bounds that leave a round for every character of the input and one more are all the same. -/
theorem interactFrom_bound {fuel : Nat} {dump : Bool} {bound other : Nat} {session : Session}
    (enough : session.machine.input.unread.length < bound)
    (otherEnough : session.machine.input.unread.length < other) (collected : List String) :
    interactFrom fuel dump bound collected session =
      interactFrom fuel dump other collected session := by
  induction bound generalizing other collected session with
  | zero => exact absurd enough (Nat.not_lt_zero _)
  | succ bound inductionHypothesis =>
    obtain ⟨other, rfl⟩ := Nat.exists_eq_succ_of_ne_zero (Nat.ne_zero_of_lt otherEnough)
    rw [interactFrom_succ, interactFrom_succ]
    cases goesOn : round fuel dump collected session with
    | ended ending last => rfl
    | next lines later =>
      have taken := round_unread goesOn
      exact inductionHypothesis (by omega) (by omega) lines

/-- What an interactive session shows below its greeting, begun on some input. -/
def loop (fuel : Nat) (dump : Bool) (input : Input) : Result :=
  transcript (interactFrom fuel dump (input.unread.length + 1) [] (Session.start input))

/-- A session without collected lines goes on as one that has just begun, behind what it has
written. -/
theorem transcript_interactFrom (fuel : Nat) (dump : Bool) {bound : Nat} {session : Session}
    (enough : session.machine.input.unread.length < bound) :
    transcript (interactFrom fuel dump bound [] session) =
      (loop fuel dump session.machine.input).preceded session.machine.output
        session.log.echoed := by
  have follows : Follows session.machine.output session.log.echoed
      (Session.start session.machine.input) session :=
    ⟨rfl, String.append_empty.symm, String.append_empty.symm⟩
  rw [interactFrom_bound enough (Nat.lt_succ_self _), follows.interactFrom]
  rfl

theorem interact_eq (fuel : Nat) (dump : Bool) (input : Input) :
    interact fuel dump input = (loop fuel dump input).preceded greeting "" := by
  have greeted : ((Session.start input).write greeting).machine.output = greeting :=
    String.empty_append
  have enough : ((Session.start input).write greeting).machine.input.unread.length <
      input.unread.length + 1 := Nat.lt_succ_self _
  have shown := transcript_interactFrom fuel dump enough
  rw [greeted] at shown
  exact shown

end LineScript.Console
