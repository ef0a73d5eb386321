import Mustache.Program.Run
import Mustache.Proofs.ByteSearch

/-! Calls of the program. A call of a task either does its work and complains of nothing, or prints
nothing and complains; which of the two can be told from the arguments, the bytes of the file and
the lexer. A listener gets its notices before anything is complained of, so what it shows comes
first and changes nothing else. -/
namespace Mustache.Program

/-! Files. -/

section Files

variable {system : Text → Except ReadError (List UInt8)} {path source : Text}

lemma decode_eq_ok_iff {b : List UInt8} {t : Text} : decode b = .ok t ↔ b = t.bytes := by
  rw [← Text.ofBytes?_eq_some_iff, decode]
  cases Text.ofBytes? b <;> simp

/-- A text is read exactly if the path leads to its bytes. -/
lemma readText_eq_ok_iff : readText system path = .ok source ↔ system path = .ok source.bytes := by
  unfold readText
  cases system path with
  | error e => exact iff_of_false (fun h => by cases h) (fun h => by cases h)
  | ok b =>
    rw [Except.ok.injEq]
    exact decode_eq_ok_iff

end Files

/-! What is left on standard error. -/

section Actions

variable {earlier : List Notice} {later : List Action}

/-- Nothing is left to tell a listener. -/
def Quiet (actions : List Action) : Prop := ∀ notice, .note notice ∉ actions

lemma Quiet.complained_eq (h : Quiet later) (listener : Option Listener) (earlier : List Notice) :
    complained listener earlier later = complained none [] later := by
  induction later with
  | nil => rfl
  | cons action later ih =>
    have hlater : Quiet later := fun notice hmem => h notice (List.mem_cons_of_mem _ hmem)
    cases action with
    | note notice => exact absurd List.mem_cons_self (h notice)
    | print t => exact ih hlater
    | complain t => exact congrArg (t ++ ·) (ih hlater)

lemma quiet_print (t : Text) : Quiet [.print t] := by simp [Quiet]

lemma quiet_complain (t : Text) : Quiet [.complain t] := by simp [Quiet]

/-- What is shown of notices comes before what is complained of behind them. -/
lemma complained_notes (listener : Option Listener) (notices : List Notice) (hlater : Quiet later) :
    complained listener earlier (notices.map .note ++ later) =
      listener.elim [] (·.recordsFrom earlier notices) ++ complained none [] later := by
  induction notices generalizing earlier with
  | nil =>
    rw [List.map_nil, List.nil_append, hlater.complained_eq]
    cases listener <;> rfl
  | cons notice notices ih =>
    rw [List.map_cons, List.cons_append, complained, ih]
    cases listener <;> simp [Listener.recordsFrom]

lemma printed_notes (notices : List Notice) (later : List Action) :
    printed (notices.map .note ++ later) = printed later := by
  induction notices with
  | nil => rfl
  | cons notice notices ih => exact ih

/-- The outcome of a reply that tells its notices first. -/
lemma outcome_notes (listener : Option Listener) {status : Nat} (notices : List Notice)
    (hlater : Quiet later) :
    Reply.outcome listener ⟨status, notices.map .note ++ later⟩ =
      ⟨status, printed later,
        listener.elim [] (·.records notices) ++ complained none [] later⟩ := by
  simp only [Reply.outcome, printed_notes, complained_notes listener notices hlater,
    Listener.records]

lemma outcome_notes_print (notices : List Notice) (t : Text) :
    Reply.outcome none ⟨0, notices.map .note ++ [.print t]⟩ = ⟨0, t, []⟩ := by
  rw [outcome_notes none notices (quiet_print t)]
  simp [printed, complained]

lemma outcome_notes_complain (notices : List Notice) (t : Text) :
    Reply.outcome none ⟨1, notices.map .note ++ [.complain t]⟩ = ⟨1, [], t⟩ := by
  rw [outcome_notes none notices (quiet_complain t)]
  simp [printed, complained]

end Actions

/-! Calls of a task. -/

/-- Arguments that are accepted ask for data exactly if the option is among them. -/
lemma json_of_parseFrom {path : Option Text} {json : Bool} {d : Delimiters}
    {arguments : List Text} {parsed : Arguments}
    (h : parseFrom path json d arguments = .ok parsed) :
    parsed.json = true ↔ json = true ∨ jsonOption ∈ arguments := by
  fun_induction parseFrom path json d arguments with
  | case1 json d p =>
    obtain rfl := Except.ok.inj h
    simp
  | case2 => cases h
  | case3 path json d argument later hjson ih => simp [ih h, beq_iff_eq.1 hjson]
  | case4 path json d argument later hjson _ pair _ ih =>
    simp [ih h, Ne.symm (by simpa using hjson)]
  | case5 => cases h
  | case6 => cases h
  | case7 json d argument later hjson _ _ ih => simp [ih h, Ne.symm (by simpa using hjson)]
  | case8 => cases h

lemma json_of_parseArguments {arguments : List Text} {parsed : Arguments}
    (h : parseArguments arguments = .ok parsed) :
    parsed.json = true ↔ jsonOption ∈ arguments := by
  simpa using json_of_parseFrom h

/-- The word that calls a task. -/
def Task.command : Task → Text
  | .tokens => "lex".toList
  | .canonical => "canon".toList

lemma ofArguments_command (task : Task) (arguments : List Text) :
    Request.ofArguments (task.command :: arguments) = .ofTask task arguments := by
  cases task <;> rfl

/-- What a task prints of the tokens of its template. -/
def Task.product (task : Task) (parsed : Arguments) (tokens : List Token) : Text :=
  match task with
  | .tokens => printTokens parsed tokens
  | .canonical => Canonical.write parsed.delimiters tokens

/-- What a listener gets to know of a task: the notices of the run over its template, and one more
about a file whose tokens are listed. -/
def Task.notices (task : Task) (parsed : Arguments) (source : Text) : List Notice :=
  runNotices source (Lexer.runOn parsed.delimiters source).records ++
    match task, tokenize parsed.delimiters source with
    | .tokens, .ok listed => [.event (listedEntry parsed.path listed)]
    | _, _ => []

/-- What a listener gets to know of a call. There is nothing to know of one that does not come to a
template. -/
def callNotices (system : Text → Except ReadError (List UInt8)) (arguments : List Text) :
    List Notice :=
  match Request.ofArguments arguments with
  | .work task parsed =>
    match readText system parsed.path with
    | .ok source => task.notices parsed source
    | .error _ => []
  | _ => []

/-- All that a task needs to do its work: its arguments are accepted, data is not asked of a task
that prints none, the path leads to the bytes of a text, and the text is a template under the pair
given. -/
structure Completes (system : Text → Except ReadError (List UInt8)) (task : Task)
    (arguments : List Text) (parsed : Arguments) (source : Text) (tokens : List Token) : Prop where
  accepted : parseArguments arguments = .ok parsed
  noJson : task = .canonical → jsonOption ∉ arguments
  held : system parsed.path = .ok source.bytes
  lexed : tokenize parsed.delimiters source = .ok tokens

section Replies

variable {system : Text → Except ReadError (List UInt8)} {task : Task} {arguments : List Text}
  {parsed : Arguments} {source : Text} {tokens : List Token}

lemma ofTask_of_accepted (h : parseArguments arguments = .ok parsed)
    (hjson : task = .canonical → jsonOption ∉ arguments) :
    Request.ofTask task arguments = .work task parsed := by
  have hno : ¬ (task = .canonical ∧ parsed.json = true) := fun ⟨htask, hparsed⟩ =>
    hjson htask ((json_of_parseArguments h).1 hparsed)
  simp [Request.ofTask, h, hno]

lemma perform_of_lexed (h : tokenize parsed.delimiters source = .ok tokens) :
    perform task parsed source =
      ⟨0, (task.notices parsed source).map .note ++ [.print (task.product parsed tokens)]⟩ := by
  have hresult : (Lexer.runOn parsed.delimiters source).result = .ok tokens := h
  cases task <;> simp [perform, hresult, Task.notices, h, Task.product]

lemma perform_of_failure (task : Task) {failure : Failure}
    (h : tokenize parsed.delimiters source = .error failure) :
    perform task parsed source = ⟨1, (task.notices parsed source).map .note ++
      [.complain (Diagnostic.render parsed.path source failure)]⟩ := by
  have hresult : (Lexer.runOn parsed.delimiters source).result = .error failure := h
  cases task <;> simp [perform, hresult, Task.notices, h]

lemma errorLine_ne_nil (message : Text) : errorLine message ≠ [] :=
  List.append_ne_nil_of_right_ne_nil _ (List.cons_ne_nil _ _)

lemma render_ne_nil (path source : Text) (failure : Failure) :
    Diagnostic.render path source failure ≠ [] :=
  List.append_ne_nil_of_right_ne_nil _ (List.cons_ne_nil _ _)

/-- A task that has all it needs prints its product. -/
lemma Completes.outcome (h : Completes system task arguments parsed source tokens) :
    (respond (readText system) (.ofTask task arguments)).outcome none =
      ⟨0, task.product parsed tokens, []⟩ := by
  rw [ofTask_of_accepted h.accepted h.noJson]
  simp only [respond, readText_eq_ok_iff.2 h.held, perform_of_lexed h.lexed]
  exact outcome_notes_print _ _

/-- A task that lacks something prints nothing and complains. -/
lemma exists_completes_or_fails (system : Text → Except ReadError (List UInt8)) (task : Task)
    (arguments : List Text) :
    (∃ parsed source tokens, Completes system task arguments parsed source tokens) ∨
      ∃ complaint, complaint ≠ [] ∧
        (respond (readText system) (.ofTask task arguments)).outcome none =
          ⟨1, [], complaint⟩ := by
  cases hparse : parseArguments arguments with
  | error problem =>
    have hne : errorLine problem.message ++ task.usage ≠ [] :=
      List.append_ne_nil_of_left_ne_nil (errorLine_ne_nil _) _
    refine .inr ⟨_, hne, ?_⟩
    simp [Request.ofTask, hparse, respond, Reply.outcome, printed, complained]
  | ok parsed =>
    by_cases hjson : task = .canonical ∧ jsonOption ∈ arguments
    · have hrequest : Request.ofTask task arguments = .noJson := by
        simp [Request.ofTask, hparse, hjson.1, (json_of_parseArguments hparse).2 hjson.2]
      rw [hrequest]
      exact .inr ⟨_, errorLine_ne_nil _, outcome_notes_complain [] _⟩
    · have hno : task = .canonical → jsonOption ∉ arguments := fun htask hmem =>
        hjson ⟨htask, hmem⟩
      rw [ofTask_of_accepted hparse hno, respond]
      cases hread : readText system parsed.path with
      | error e => exact .inr ⟨_, errorLine_ne_nil _, outcome_notes_complain [] _⟩
      | ok source =>
        cases hlex : tokenize parsed.delimiters source with
        | error failure =>
          refine .inr ⟨_, render_ne_nil parsed.path source failure, ?_⟩
          simp only [perform_of_failure task hlex]
          exact outcome_notes_complain _ _
        | ok tokens =>
          exact .inl ⟨parsed, source, tokens, hparse, hno, readText_eq_ok_iff.1 hread, hlex⟩

/-- Every reply tells its notices before it prints or complains. -/
lemma exists_respond_eq (system : Text → Except ReadError (List UInt8)) (arguments : List Text) :
    ∃ status later, Quiet later ∧ respond (readText system) (.ofArguments arguments) =
      ⟨status, (callNotices system arguments).map .note ++ later⟩ := by
  unfold callNotices
  cases Request.ofArguments arguments with
  | help => exact ⟨_, _, quiet_print _, rfl⟩
  | version => exact ⟨_, _, quiet_print _, rfl⟩
  | unknown command => exact ⟨_, _, by simp [Quiet], rfl⟩
  | refused task problem => exact ⟨_, _, by simp [Quiet], rfl⟩
  | noJson => exact ⟨_, _, quiet_complain _, rfl⟩
  | work task parsed =>
    simp only [respond]
    cases readText system parsed.path with
    | error e => exact ⟨_, _, quiet_complain _, rfl⟩
    | ok source =>
      cases hlex : tokenize parsed.delimiters source with
      | error failure => exact ⟨_, _, quiet_complain _, perform_of_failure task hlex⟩
      | ok tokens => exact ⟨_, _, quiet_print _, perform_of_lexed hlex⟩

end Replies

/-- A listener changes neither the status nor what is printed; what it shows of the notices of the
call comes in front of what is complained of without it. A task ends well if and only if it has all
that it needs, and then it prints its product and complains of nothing; else its status is one, it
complains, and it prints nothing. Both hold whatever the paths of the system lead to. -/
theorem run_call (system : Text → Except ReadError (List UInt8)) :
    (∀ (arguments : List Text) (listener : Listener),
      runFor (some listener) (readText system) arguments =
        ⟨(runFor none (readText system) arguments).status,
          (runFor none (readText system) arguments).stdout,
          listener.records (callNotices system arguments) ++
            (runFor none (readText system) arguments).stderr⟩) ∧
    ∀ (task : Task) (arguments : List Text),
      ((runFor none (readText system) (task.command :: arguments)).status = 0 ↔
        ∃ parsed source tokens, Completes system task arguments parsed source tokens) ∧
      (∀ parsed source tokens, Completes system task arguments parsed source tokens →
        runFor none (readText system) (task.command :: arguments) =
          ⟨0, task.product parsed tokens, []⟩) ∧
      ((¬ ∃ parsed source tokens, Completes system task arguments parsed source tokens) →
        ∃ complaint, complaint ≠ [] ∧
          runFor none (readText system) (task.command :: arguments) = ⟨1, [], complaint⟩) := by
  refine ⟨fun arguments listener => ?_, fun task arguments => ?_⟩
  · obtain ⟨status, later, hlater, hreply⟩ := exists_respond_eq system arguments
    simp only [runFor, hreply, outcome_notes _ _ hlater, Option.elim_some, Option.elim_none,
      List.nil_append]
  have hrun : runFor none (readText system) (task.command :: arguments) =
      (respond (readText system) (.ofTask task arguments)).outcome none := by
    rw [runFor, ofArguments_command]
  have hprint : ∀ parsed source tokens, Completes system task arguments parsed source tokens →
      runFor none (readText system) (task.command :: arguments) =
        ⟨0, task.product parsed tokens, []⟩ := fun _ _ _ h => hrun.trans h.outcome
  have hfail : (¬ ∃ parsed source tokens, Completes system task arguments parsed source tokens) →
      ∃ complaint, complaint ≠ [] ∧
        runFor none (readText system) (task.command :: arguments) = ⟨1, [], complaint⟩ := by
    intro h
    rw [hrun]
    exact (exists_completes_or_fails system task arguments).resolve_left h
  refine ⟨⟨fun hstatus => ?_, ?_⟩, hprint, hfail⟩
  · by_contra h
    obtain ⟨complaint, -, hone⟩ := hfail h
    rw [hone] at hstatus
    cases hstatus
  · rintro ⟨parsed, source, tokens, h⟩
    rw [hprint parsed source tokens h]

/-- A template of one character in canonical form, with the lines of the log in front of an empty
complaint; and a template that must not be read. -/
theorem run_call_canonical :
    run (LogFilter.ofText? "stache=debug".toList)
        (readText fun _ => .ok (Text.bytes ['a'])) ["canon".toList, ['t']] =
      ⟨0, ['a'], (" stache_lexer::lex_with len=1\n" ++
        "  DEBUG stache_lexer::scanner scan complete, tokens=1\n").toList⟩ ∧
      (run none (readText fun _ => .error .denied) ["canon".toList, ['t']]).status ≠ 0 := by
  constructor
  · obtain ⟨hlisten, htask⟩ := run_call fun _ => .ok (Text.bytes ['a'])
    have hfilter : LogFilter.ofText? "stache=debug".toList =
        some ⟨"stache".toList, some .debug⟩ := by decide
    have hplain := (htask .canonical [['t']]).2.1 ⟨['t'], false, .braces⟩ ['a'] [.text ['a']]
      ⟨by decide, by decide, rfl, by decide +kernel⟩
    rw [run, hfilter, Option.map_some, hlisten,
      show "canon".toList = Task.canonical.command from rfl, hplain]
    decide +kernel
  · obtain ⟨-, htask⟩ := run_call fun _ => .error .denied
    rw [run, Option.map_none, show "canon".toList = Task.canonical.command from rfl, Ne,
      (htask .canonical [['t']]).1]
    rintro ⟨parsed, source, tokens, h⟩
    cases h.held

end Mustache.Program
