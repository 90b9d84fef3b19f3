import CurveFit.Cli.Run
import CurveFit.Model.Shapes
import Mathlib.Data.List.TakeWhile

/-!
# The spellings of an option

A value follows its option in an argument of its own (`apart`) or after an equals sign in the same
argument (`joined`).  Reading the arguments is a machine that takes them one by one
(`scan_eq_result`), so that a command line is cut where the option stands.  What is read before it
either leaves a command whose options are expected, or has settled that the line is refused
(`parseArguments_before`); in the first case the two spellings add the same value, except that a
value in an argument of its own may start with a hyphen only where the option says so.
-/

namespace CurveFit.Cli

open Text

/-! ## Reading one argument at a time -/

/-- How far reading options has come. -/
inductive Progress where
  | ready (given : Given)
  | awaiting (o : OptionSpec) (kind : ValueKind) (given : Given)
  /-- The value in the last argument is refused; an operand may still follow. -/
  | refused (h : Halt)
  | stopped (scanned : Scanned)
  | halted (h : Halt)

namespace Progress

variable (specs : List OptionSpec) (hasVersion : Bool)

/-- Takes one more argument. -/
def step : Progress → String → Progress
  | .ready given, arg =>
    match readArgument specs hasVersion arg given with
    | .halt h => .halted h
    | .operand => .stopped ⟨.ok given, [arg]⟩
    | .done given => .ready given
    | .needsValue o kind => .awaiting o kind given
  | .awaiting o kind given, arg =>
    if canFollow o arg then
      match addText o kind arg given with
      | .ok given => .ready given
      | .error h => .refused h
    else .halted .usage
  | .refused h, arg => if isOperand arg then .stopped ⟨.error h, [arg]⟩ else .halted h
  | .stopped s, arg => .stopped ⟨s.given, s.operands ++ [arg]⟩
  | .halted h, _ => .halted h

/-- What reading comes to at the end of the arguments. -/
def result : Progress → Except Halt Scanned
  | .ready given => .ok ⟨.ok given, []⟩
  | .awaiting _ _ _ => .error .usage
  | .refused h => .error h
  | .stopped s => .ok s
  | .halted h => .error h

/-- What a command makes of it: no operand may be left, a terminator apart. -/
def answer (p : Progress) : Except Halt Given := do
  let s ← p.result
  let given ← s.given
  if s.operands = [] ∨ s.operands = ["--"] then pure given else throw .usage

variable {specs hasVersion} {p : Progress} {args rest : List String} {arg : String} {given : Given}
  {h : Halt} {s : Scanned} {o : OptionSpec} {kind : ValueKind}

theorem foldl_halted : args.foldl (step specs hasVersion) (.halted h) = .halted h := by
  induction args with
  | nil => rfl
  | cons arg args ih => exact ih

theorem foldl_stopped : args.foldl (step specs hasVersion) (.stopped s) =
    .stopped ⟨s.given, s.operands ++ args⟩ := by
  induction args generalizing s with
  | nil => rw [List.append_nil]; rfl
  | cons arg args ih =>
    rw [List.foldl_cons, step, ih, List.append_assoc]
    rfl

theorem result_refused : (args.foldl (step specs hasVersion) (.refused h)).result =
    if args.head?.any isOperand then .ok ⟨.error h, args⟩ else .error h := by
  cases args with
  | nil => rfl
  | cons arg args =>
    rw [List.foldl_cons, step, List.head?_cons, Option.any_some]
    split
    · rw [foldl_stopped]
      rfl
    · rw [foldl_halted]
      rfl

theorem answer_halted : (args.foldl (step specs hasVersion) (.halted h)).answer = .error h := by
  rw [foldl_halted]
  rfl

theorem answer_refused : (args.foldl (step specs hasVersion) (.refused h)).answer = .error h := by
  rw [answer, result_refused]
  split <;> rfl

end Progress

open Progress

variable {specs : List OptionSpec} {hasVersion : Bool}

/-- **Reading** is taking the arguments one by one. -/
theorem scan_eq_result (args : List String) (given : Given) : scan specs hasVersion args given =
    (args.foldl (step specs hasVersion) (.ready given)).result := by
  fun_induction scan specs hasVersion args given with
  | case1 given => rfl
  | case2 arg rest given h harg =>
    rw [List.foldl_cons, step, harg, foldl_halted]
    rfl
  | case3 arg rest given harg =>
    rw [List.foldl_cons, step, harg, foldl_stopped]
    rfl
  | case4 arg rest given given' harg ih =>
    rw [List.foldl_cons, step, harg, ih]
  | case5 arg given o kind harg =>
    rw [List.foldl_cons, step, harg]
    rfl
  | case6 arg given o kind harg value rest hfollow given' hvalue ih =>
    rw [List.foldl_cons, step, harg, List.foldl_cons, step, if_pos hfollow, hvalue, ih]
  | case7 arg given o kind harg value rest hfollow h hvalue hoperand =>
    rw [List.foldl_cons, step, harg, List.foldl_cons, step, if_pos hfollow, hvalue, result_refused,
      if_pos hoperand]
  | case8 arg given o kind harg value rest hfollow h hvalue hoperand =>
    rw [List.foldl_cons, step, harg, List.foldl_cons, step, if_pos hfollow, hvalue, result_refused,
      if_neg hoperand]
  | case9 arg given o kind harg value rest hfollow =>
    rw [List.foldl_cons, step, harg, List.foldl_cons, step, if_neg hfollow, foldl_halted]
    rfl

/-! ## Forms -/

variable {name text arg : String} {value : Option String} {o : OptionSpec} {given : Given}

/-- An option and its value in an argument each. -/
def apart (name text : String) : List String := ["--" ++ name, text]

/-- An option and its value in one argument. -/
def joined (name text : String) : String := "--" ++ name ++ "=" ++ text

theorem Form.of_apart (hequals : '=' ∉ name.toList) (hname : name ≠ "") :
    Form.of ("--" ++ name) = .long name none := by
  obtain ⟨c, cs, hcs⟩ := List.exists_cons_of_ne_nil fun h => hname (String.toList_eq_nil_iff.mp h)
  have hlist : ("--" ++ name).toList = '-' :: '-' :: c :: cs := by
    rw [String.toList_append, hcs]
    rfl
  have hall : ∀ x ∈ c :: cs, (x != '=') = true := fun x hx =>
    bne_iff_ne.mpr fun h => hequals (hcs ▸ h ▸ hx)
  unfold Form.of
  rw [hlist]
  simp only [List.takeWhile_eq_self_iff.mpr hall, List.dropWhile_eq_nil_iff.mpr hall]
  rw [← hcs, String.ofList_toList]

theorem Form.of_joined (text : String) (hequals : '=' ∉ name.toList) :
    Form.of (joined name text) = .long name (some text) := by
  have hall : ∀ c ∈ name.toList, (c != '=') = true := fun c hc =>
    bne_iff_ne.mpr fun h => hequals (h ▸ hc)
  have hlist : (joined name text).toList = '-' :: '-' :: (name.toList ++ '=' :: text.toList) := by
    unfold joined
    simp
  unfold Form.of
  rw [hlist]
  simp [List.takeWhile_append_of_pos hall, List.dropWhile_append_of_pos hall]

theorem Form.of_eq_plain (h : text.toList.head? ≠ some '-') : Form.of text = .plain := by
  unfold Form.of
  split <;> simp_all

theorem Form.of_ne_plain (hhead : text.toList.head? = some '-') (hne : text.toList ≠ ['-']) :
    Form.of text ≠ .plain := by
  obtain ⟨cs, hcs⟩ := List.head?_eq_some_iff.mp hhead
  obtain ⟨c, cs, rfl⟩ := List.exists_cons_of_ne_nil fun h => hne (h ▸ hcs)
  unfold Form.of
  rw [hcs]
  split
  · exact nofun
  · dsimp only
    split <;> exact nofun
  · exact nofun
  · rename_i hshort
    exact absurd rfl (hshort c cs)

theorem exists_of_long (h : Form.of arg = .long name value) :
    ∃ body, arg.toList = '-' :: '-' :: body := by
  unfold Form.of at h
  split at h
  · cases h
  · rename_i body _ _
    exact ⟨body, by assumption⟩
  · cases h
  · cases h

/-- A text with two hyphens before it is not a number. -/
theorem readNumber?_long (body : List Char) : readNumber? ('-' :: '-' :: body) = none := by
  have hne (word : String) (hword : word.toList.head? ≠ some '-') :
      String.ofList (('-' :: body).map Char.toLower) ≠ word := by
    rintro rfl
    exact hword (by rw [String.toList_ofList]; rfl)
  have hspecial : readSpecial? ('-' :: body) = none := by
    unfold readSpecial?
    split
    · exact absurd ‹_› (hne "inf" (by decide))
    · exact absurd ‹_› (hne "infinity" (by decide))
    · exact absurd ‹_› (hne "nan" (by decide))
    · rfl
  have hdecimal : readDecimal? ('-' :: body) = none := rfl
  show ((readSpecial? ('-' :: body)).orElse fun _ => readDecimal? ('-' :: body)).map _ = none
  rw [hspecial, hdecimal]
  rfl

/-- Nor are such numbers between commas. -/
theorem readNumbers?_long (body : List Char) :
    (splitCommas ('-' :: '-' :: body)).mapM readBits? = none := by
  obtain ⟨first, rest, hsplit⟩ : ∃ first rest,
      splitCommas ('-' :: '-' :: body) = ('-' :: '-' :: first) :: rest := by
    unfold splitCommas
    rw [List.foldr_cons, List.foldr_cons, if_neg (by decide), if_neg (by decide)]
    generalize List.foldr _ _ body = pieces
    cases pieces <;> exact ⟨_, _, rfl⟩
  rw [hsplit, List.mapM_cons, readBits?, readNumber?_long]
  rfl

/-! ## What stands before an option -/

variable {p : Progress} {args rest : List String} {kind : ValueKind} {c : CommandName}

/-- A value is expected for a declared option only, and what reading has stopped at is kept. -/
def Progress.Valid (specs : List OptionSpec) : Progress → Prop
  | .awaiting o kind _ => o ∈ specs ∧ o.kind = some kind
  | .stopped s => s.operands ≠ []
  | _ => True

theorem declared_of_needsValue
    (h : readArgument specs hasVersion arg given = .needsValue o kind) :
    o ∈ specs ∧ o.kind = some kind := by
  have hcase (r : Except Halt Given) : Reading.ofExcept r ≠ .needsValue o kind := by
    cases r <;> exact nofun
  unfold readArgument at h
  repeat' split at h
  -- all other readings are closed by their constructors
  all_goals first
    | exact absurd h (hcase _)
    | cases h <;> exact ⟨List.mem_of_find?_eq_some ‹_›, ‹_›⟩

theorem Progress.valid_ready : (Progress.ready given).Valid specs := trivial

theorem Progress.Valid.step (hp : p.Valid specs) : (p.step specs hasVersion arg).Valid specs := by
  cases p with
  | ready given =>
    rw [Progress.step]
    split
    · trivial
    · exact List.cons_ne_nil _ _
    · trivial
    · exact declared_of_needsValue ‹_›
  | awaiting o kind given =>
    rw [Progress.step]
    repeat' split
    all_goals trivial
  | refused h =>
    rw [Progress.step]
    split
    · exact List.cons_ne_nil _ _
    · trivial
  | stopped s => exact List.append_ne_nil_of_left_ne_nil hp _
  | halted h => trivial

theorem Progress.Valid.foldl (hp : p.Valid specs) (args : List String) :
    (args.foldl (Progress.step specs hasVersion) p).Valid specs :=
  List.foldlRecOn args _ hp fun _ hp _ _ => hp.step

/-- A hyphen may start a number or a list of numbers only. -/
theorem hyphenValues_kind (c : CommandName) : ∀ o ∈ c.options, o.hyphenValues = true →
    o.kind = some .number ∨ o.kind = some .numbers := by
  cases c <;> decide

/-- An option is no value of another option. -/
theorem canFollow_long (hlong : Form.of arg = .long name value) (ho : o ∈ c.options)
    (hkind : o.kind = some kind) (hfollow : canFollow o arg) : kind.read? arg = none := by
  obtain ⟨body, hbody⟩ := exists_of_long hlong
  have hhyphen : o.hyphenValues = true := by
    rw [canFollow, hlong] at hfollow
    exact ((Bool.or_eq_true _ _).mp hfollow).resolve_right Bool.false_ne_true
  obtain h | h := hyphenValues_kind c o ho hhyphen
  · obtain rfl : kind = .number := Option.some.inj (hkind.symm.trans h)
    rw [ValueKind.read?, hbody, readNumber?_long]
    rfl
  · obtain rfl : kind = .numbers := Option.some.inj (hkind.symm.trans h)
    rw [ValueKind.read?, hbody, readNumbers?_long]
    rfl

theorem isOperand_long (hlong : Form.of arg = .long name value) : isOperand arg = false := by
  rw [isOperand, hlong]
  rfl

/-- Reading the options of a command expects an option, or has settled what an option that follows
comes to. -/
theorem answer_of_long (hp : p.Valid c.options) : (∃ given, p = .ready given) ∨
    ∃ h, ∀ arg name value rest, Form.of arg = .long name value →
      ((arg :: rest).foldl (step c.options false) p).answer = .error h := by
  cases p with
  | ready given => exact .inl ⟨given, rfl⟩
  | awaiting o kind given =>
    refine .inr ⟨.usage, fun arg name value rest hlong => ?_⟩
    rw [List.foldl_cons, step]
    split
    · rw [addText, canFollow_long hlong hp.1 hp.2 ‹_›]
      exact answer_refused
    · exact answer_halted
  | refused h =>
    refine .inr ⟨h, fun arg name value rest hlong => ?_⟩
    rw [List.foldl_cons, step, isOperand_long hlong]
    exact answer_halted
  | stopped s =>
    obtain ⟨given, operands⟩ := s
    obtain ⟨first, operands, rfl⟩ := List.exists_cons_of_ne_nil hp
    -- a refusal that was left open stands, and else there are operands
    cases given with
    | error h =>
      refine .inr ⟨h, fun arg name value rest hlong => ?_⟩
      rw [foldl_stopped]
      rfl
    | ok given =>
      refine .inr ⟨.usage, fun arg name value rest hlong => ?_⟩
      rw [foldl_stopped]
      exact if_neg (by simp)
  | halted h => exact .inr ⟨h, fun arg name value rest hlong => answer_halted⟩

/-- What a command line comes to: the command with its options, and the log filter given before the
command or after it. -/
def CommandName.invocation (c : CommandName) (top : Except Halt Given) (own : Given) :
    Except Halt Invocation := do
  let level := (own.text? "log-level").or ((← top).text? "log-level")
  pure ⟨level.getD "warn", c.command own⟩

theorem parseArguments_of_command {top : Except Halt Given} {word : String} {own : List String}
    (hscan : scan globalOptions true args [] = .ok ⟨top, word :: own⟩)
    (hword : CommandName.ofText? word = some c) :
    parseArguments args =
      (own.foldl (step c.options false) (.ready [])).answer >>= c.invocation top := by
  have hhelp : word ≠ "help" := by
    rintro rfl
    cases hword
  unfold parseArguments
  rw [hscan]
  show (if word = "help" then _ else _) = _
  rw [if_neg hhelp, hword]
  show (scan c.options false own [] >>= _) = _
  rw [scan_eq_result, answer, bind_assoc]
  refine congrArg _ (funext fun s => ?_)
  rw [bind_assoc]
  refine congrArg _ (funext fun given => ?_)
  split <;> rfl

theorem parseArguments_of_error {h : Halt} (hscan : scan globalOptions true args [] = .error h) :
    parseArguments args = .error h := by
  unfold parseArguments
  rw [hscan]
  rfl

/-- The long options that are not declared by a command alone. -/
def commonNames : List String := ["help", "version", "log-level"]

theorem readArgument_undeclared (hlong : Form.of arg = .long name value)
    (hname : name ∉ commonNames) (hfind : specs.find? (·.name == name) = none) :
    readArgument specs hasVersion arg given = .halt .usage := by
  simp only [commonNames, List.mem_cons, List.not_mem_nil, or_false, not_or] at hname
  unfold readArgument
  simp only [hlong, hname.1, hname.2.1, hfind, if_false, false_and]

theorem readArgument_valued (hlong : Form.of arg = .long name value) (hname : name ∉ commonNames)
    (hfind : specs.find? (·.name == name) = some o) (hkind : o.kind = some kind) :
    readArgument specs hasVersion arg given =
      value.elim (.needsValue o kind) fun text => .ofExcept (addText o kind text given) := by
  simp only [commonNames, List.mem_cons, List.not_mem_nil, or_false, not_or] at hname
  unfold readArgument
  simp only [hlong, hname.1, hname.2.1, hfind, hkind, if_false, false_and]
  cases value <;> rfl

theorem find?_globalOptions (hname : name ∉ commonNames) :
    globalOptions.find? (·.name == name) = none := by
  refine List.find?_eq_none.mpr fun o ho h => hname ?_
  rw [← beq_iff_eq.mp h, List.mem_singleton.mp ho]
  decide

theorem readHelp_long {own : List String} (hlong : Form.of arg = .long name value) :
    readHelp (own ++ arg :: rest) = .usage := by
  have hplain : ∀ word : String, Form.of word = .plain → arg ≠ word := by
    rintro word hword rfl
    cases hlong.symm.trans hword
  have hhelp : arg ≠ "help" := hplain "help" (by decide)
  have hcommand : CommandName.ofText? arg = none :=
    List.find?_eq_none.mpr fun c _ h =>
      hplain c.text (by cases c <;> decide) (beq_iff_eq.mp h).symm
  match own, rest with
  | [], [] => simp only [List.nil_append, readHelp, hhelp, hcommand, Option.isSome_none, or_self,
      Bool.false_eq_true, if_false]
  | [], _ :: _ => rfl
  | [_], _ => rfl
  | _ :: _ :: _, _ => rfl

/-- **The arguments before an option** leave a command that expects options, or have settled what the
line comes to. -/
theorem parseArguments_before (before : List String) :
    (∃ c top given, ∀ rest, parseArguments (before ++ rest) =
      (rest.foldl (step (CommandName.options c) false) (.ready given)).answer >>= c.invocation top) ∨
    ∃ h, ∀ arg name value rest, Form.of arg = .long name value → name ∉ commonNames →
      parseArguments (before ++ arg :: rest) = .error h := by
  have hscan (rest : List String) : scan globalOptions true (before ++ rest) [] =
      (rest.foldl (step globalOptions true)
        (before.foldl (step globalOptions true) (.ready []))).result := by
    rw [scan_eq_result, List.foldl_append]
  have hvalid : (before.foldl (step globalOptions true) (.ready [])).Valid globalOptions :=
    Progress.valid_ready.foldl before
  generalize before.foldl (step globalOptions true) (.ready []) = p at hscan hvalid
  cases p with
  | ready given =>
    refine .inr ⟨.usage, fun arg name value rest hlong hname => parseArguments_of_error ?_⟩
    rw [hscan, List.foldl_cons, step, readArgument_undeclared hlong hname (find?_globalOptions hname),
      foldl_halted]
    rfl
  | awaiting o kind given =>
    refine .inr ⟨.usage, fun arg name value rest hlong hname => parseArguments_of_error ?_⟩
    have hfollow : canFollow o arg = false := by
      rw [canFollow, hlong, List.mem_singleton.mp hvalid.1]
      rfl
    rw [hscan, List.foldl_cons, step, hfollow]
    exact congrArg result foldl_halted
  | refused h =>
    refine .inr ⟨h, fun arg name value rest hlong hname => parseArguments_of_error ?_⟩
    rw [hscan, List.foldl_cons, step, isOperand_long hlong]
    exact congrArg result foldl_halted
  | halted h =>
    refine .inr ⟨h, fun arg name value rest hlong hname => parseArguments_of_error ?_⟩
    rw [hscan, foldl_halted]
    rfl
  | stopped s =>
    obtain ⟨top, operands⟩ := s
    obtain ⟨word, own, rfl⟩ := List.exists_cons_of_ne_nil hvalid
    simp only [foldl_stopped, result, List.cons_append] at hscan
    cases hword : CommandName.ofText? word with
    | none =>
      refine .inr ⟨.usage, fun arg name value rest hlong hname => ?_⟩
      unfold parseArguments
      rw [hscan]
      show (if word = "help" then _ else _) = _
      rw [hword]
      split
      · exact congrArg Except.error (readHelp_long hlong)
      · rfl
    | some c =>
      have hparse (rest : List String) := parseArguments_of_command (hscan rest) hword
      simp only [List.foldl_append] at hparse
      obtain ⟨given, hready⟩ | ⟨h, herror⟩ := answer_of_long (c := c) (Progress.valid_ready.foldl own)
      · exact .inl ⟨c, top, given, fun rest => by rw [hparse, hready]⟩
      · refine .inr ⟨h, fun arg name value rest hlong hname => ?_⟩
        rw [hparse, herror arg name value rest hlong]
        rfl

/-! ## The two spellings -/

section Ready

variable (hfind : c.options.find? (·.name == name) = some o) (hkind : o.kind = some kind)
  (hequals : '=' ∉ name.toList) (hname : name ∉ commonNames)

include hfind hkind hequals hname

/-- A value in the same argument is added. -/
theorem answer_joined :
    ((joined name text :: rest).foldl (step c.options false) (.ready given)).answer =
      addText o kind text given >>= fun given =>
        (rest.foldl (step c.options false) (.ready given)).answer := by
  rw [List.foldl_cons, step, readArgument_valued (Form.of_joined text hequals) hname hfind hkind,
    Option.elim_some]
  cases addText o kind text given with
  | ok given => rfl
  | error h => exact answer_halted

variable (hne : name ≠ "")

include hne

/-- A value in an argument of its own is added, if it can follow the option. -/
theorem answer_apart :
    ((apart name text ++ rest).foldl (step c.options false) (.ready given)).answer =
      if canFollow o text then addText o kind text given >>= fun given =>
        (rest.foldl (step c.options false) (.ready given)).answer
      else .error .usage := by
  show ((_ :: text :: rest).foldl (step c.options false) (.ready given)).answer = _
  rw [List.foldl_cons, step, readArgument_valued (Form.of_apart hequals hne) hname hfind hkind,
    Option.elim_none, List.foldl_cons, step]
  split
  · cases addText o kind text given with
    | ok given => rfl
    | error h => exact answer_refused
  · exact answer_halted

end Ready

/-! ### Options for numbers -/

theorem number_option_name (c : CommandName) : ∀ o ∈ c.options, o.kind = some .number →
    '=' ∉ o.name.toList ∧ o.name ≠ "" ∧ o.name ∉ commonNames := by
  cases c <;> decide

/-- Only the check of the exponential takes numbers with a hyphen. -/
theorem number_option_hyphen (c : CommandName) : ∀ o ∈ c.options, o.kind = some .number →
    (o.hyphenValues = true ↔ c = .expCheck) := by
  cases c <;> decide

/-- A name means the same number in every command that has it. -/
theorem number_option_find? (c d : CommandName) : ∀ o ∈ c.options, o.kind = some .number →
    d.options.find? (·.name == o.name) = none ∨ d.options.find? (·.name == o.name) = some o := by
  cases c <;> cases d <;> decide

/-- A number may follow its option unless it starts with a hyphen and the option does not allow it. -/
theorem canFollow_number {x : Float} (hread : readNumber? text.toList = some x) :
    canFollow o text ↔ o.hyphenValues ∨ text.toList.head? ≠ some '-' := by
  have hplain : Form.of text = .plain ↔ text.toList.head? ≠ some '-' := by
    refine ⟨fun h hhead => Form.of_ne_plain hhead ?_ h, Form.of_eq_plain⟩
    intro hsingle
    rw [hsingle] at hread
    cases hread
  rw [canFollow, Bool.or_eq_true, beq_iff_eq, hplain]

/-- A command line of one option. -/
theorem parseArguments_joined {x : Float} (ho : o ∈ c.options) (hkind : o.kind = some .number)
    (hread : readNumber? text.toList = some x) :
    parseArguments [c.text, joined o.name text] =
      .ok ⟨"warn", c.command [(o.name, .number x)]⟩ := by
  obtain ⟨hequals, hne, hname⟩ := number_option_name c o ho hkind
  have hfind : c.options.find? (·.name == o.name) = some o := by
    obtain h | h := number_option_find? c c o ho hkind
    · exact absurd (beq_self_eq_true o.name) (List.find?_eq_none.mp h o ho)
    · exact h
  have hvalue : ValueKind.number.read? text = some (.number x) := by
    rw [ValueKind.read?, hread]
    rfl
  have hadd : add o (.number x) [] = .ok [(o.name, .number x)] := by
    rw [add, List.lookup_nil, Option.isSome_none, Bool.and_false]
    rfl
  have hlevel : Given.text? [(o.name, .number x)] "log-level" = none := by
    have hother : ("log-level" == o.name) = false :=
      beq_eq_false_iff_ne.mpr fun h => hname (h ▸ by decide)
    rw [Given.text?, List.lookup_cons, hother]
    rfl
  have hplain : Form.of c.text = .plain := by cases c <;> decide
  have hscan : scan globalOptions true [c.text, joined o.name text] [] =
      .ok ⟨.ok [], [c.text, joined o.name text]⟩ := by
    unfold scan readArgument
    rw [hplain]
  have hword : CommandName.ofText? c.text = some c := by cases c <;> decide
  rw [parseArguments_of_command hscan hword, answer_joined hfind hkind hequals hname, addText, hvalue]
  show (add o (.number x) [] >>= _) >>= _ = _
  rw [hadd]
  show c.invocation (.ok []) [(o.name, .number x)] = _
  rw [CommandName.invocation, hlevel]
  rfl

/-- The arguments before an option for a number leave a command that declares it, or have settled what
the line comes to. -/
theorem parseArguments_before_number (ho : o ∈ c.options) (hkind : o.kind = some .number)
    (before : List String) :
    (∃ d top given, (CommandName.options d).find? (·.name == o.name) = some o ∧
      ∀ rest, parseArguments (before ++ rest) =
        (rest.foldl (step d.options false) (.ready given)).answer >>= d.invocation top) ∨
    ∃ h, ∀ arg value rest, Form.of arg = .long o.name value →
      parseArguments (before ++ arg :: rest) = .error h := by
  obtain ⟨-, -, hname⟩ := number_option_name c o ho hkind
  obtain ⟨d, top, given, hparse⟩ | ⟨h, herror⟩ := parseArguments_before before
  · obtain hfind | hfind := number_option_find? c d o ho hkind
    · refine .inr ⟨.usage, fun arg value rest hlong => ?_⟩
      rw [hparse, List.foldl_cons, step, readArgument_undeclared hlong hname hfind, answer_halted]
      rfl
    · exact .inl ⟨d, top, given, hfind, hparse⟩
  · exact .inr ⟨h, fun arg value rest hlong => herror arg o.name value rest hlong hname⟩

/-- **Numbers for options.**  In every command, the number that a text stands for can be given to an
option for numbers in the same argument.  In an argument of its own it is read alike, wherever in a
command line it stands, if it does not start with a hyphen or the command is the check of the
exponential.  In the other commands a number that starts with a hyphen is refused in an argument of
its own. -/
theorem spellings_agree (c : CommandName) (o : OptionSpec) (ho : o ∈ c.options)
    (hkind : o.kind = some .number) (text : String) (x : Float)
    (hread : readNumber? text.toList = some x) :
    parseArguments [c.text, joined o.name text] =
      .ok ⟨"warn", c.command [(o.name, .number x)]⟩ ∧
    ∀ before after : List String,
      (c = .expCheck ∨ text.toList.head? ≠ some '-' →
        parseArguments (before ++ (apart o.name text ++ after)) =
          parseArguments (before ++ joined o.name text :: after)) ∧
      (c ≠ .expCheck → text.toList.head? = some '-' → ∀ invocation,
        parseArguments (before ++ joined o.name text :: after) = .ok invocation →
          parseArguments (before ++ (apart o.name text ++ after)) = .error .usage) := by
  obtain ⟨hequals, hne, hname⟩ := number_option_name c o ho hkind
  have hfollow := canFollow_number (o := o) hread
  rw [number_option_hyphen c o ho hkind] at hfollow
  refine ⟨parseArguments_joined ho hkind hread, fun before after => ?_⟩
  obtain ⟨d, top, given, hfind, hparse⟩ | ⟨h, herror⟩ :=
    parseArguments_before_number ho hkind before
  · rw [hparse, hparse, answer_joined hfind hkind hequals hname,
      answer_apart hfind hkind hequals hname hne]
    refine ⟨fun h => by rw [if_pos (hfollow.mpr h)], fun hc hhead invocation _ => ?_⟩
    rw [if_neg fun h => (hfollow.mp h).elim hc fun h => h hhead]
    rfl
  · have hjoined := herror _ _ after (Form.of_joined text hequals)
    have hapart := herror _ _ (text :: after) (Form.of_apart hequals hne)
    exact ⟨fun _ => hapart.trans hjoined.symm,
      fun _ _ invocation hok => by cases hjoined.symm.trans hok⟩

/-- A negative number in the middle of two command lines. -/
theorem spellings_agree_minus_one :
    parseArguments (["fit", "--trace"] ++ joined "x-min" "-1" :: ["-n", "5"]) =
      .ok ⟨"warn", CommandName.fit.command
        [("points", .count 5), ("x-min", .number (-1.0)), ("trace", .flag)]⟩ ∧
    parseArguments (["fit", "--trace"] ++ (apart "x-min" "-1" ++ ["-n", "5"])) = .error .usage ∧
    parseArguments (["exp-check"] ++ (apart "min" "-1" ++ ["--samples", "9"])) =
      parseArguments (["exp-check"] ++ joined "min" "-1" :: ["--samples", "9"]) := by
  have hjoined : parseArguments (["fit", "--trace"] ++ joined "x-min" "-1" :: ["-n", "5"]) =
      .ok ⟨"warn", CommandName.fit.command
        [("points", .count 5), ("x-min", .number (-1.0)), ("trace", .flag)]⟩ := by
    decide
  obtain ⟨-, hfit⟩ := spellings_agree .fit (.valued "x-min" .number) (by decide) rfl "-1" (-1.0)
    (by decide)
  obtain ⟨-, hcheck⟩ := spellings_agree .expCheck (OptionSpec.valued "min" .number).allowingHyphen
    (by decide) rfl "-1" (-1.0) (by decide)
  exact ⟨hjoined, (hfit _ _).2 nofun rfl _ hjoined, (hcheck _ _).1 (.inl rfl)⟩

/-- A range that a dataset admits cannot be given in separate arguments. -/
theorem spellings_differ :
    let args := SampleArgs.ofGiven [("x-min", .number (-1.0))]
    args.spec.validate (Model.rational [1.0, 0.0] []) [1.0, 0.0] = .ok () ∧
    parseArguments ["fit", "--x-min=-1"] =
      .ok ⟨"warn", CommandName.fit.command [("x-min", .number (-1.0))]⟩ ∧
    parseArguments ["fit", "--x-min", "-1"] = .error .usage := by
  decide

end CurveFit.Cli
