import ConfigWeave.Proofs.Expr.Literal

namespace ConfigWeave.Expr

variable {isFilter : String → Bool}

theorem writtenItems_eq_map (items : List Expr) : writtenItems isFilter items = items.map (written isFilter) := by
  induction items with
  | nil => rfl
  | cons item rest ih => rw [writtenItems, ih, List.map_cons]

theorem writtenEntries_eq_map (entries : List (Expr × Expr)) :
    writtenEntries isFilter entries = entries.map fun entry =>
      keyTokens entry.1 (written isFilter entry.1) ++ .symbol .colon :: written isFilter entry.2 := by
  induction entries with
  | nil => rfl
  | cons entry rest ih => rw [writtenEntries, ih, List.map_cons]

theorem writtenArguments_eq_map (args : List (Option String × Expr)) :
    writtenArguments isFilter args = args.map fun arg => argumentTokens arg.1 (written isFilter arg.2) := by
  induction args with
  | nil => rfl
  | cons arg rest ih => rw [writtenArguments, ih, List.map_cons]

/-- Parts up to a closing bracket, read one after the other. `done` are those before them, in reverse. -/
theorem reads_separated {α : Type} {tokens : α → List Token} (closing : Symbol) (here behind : List α → State)
    {parts : List α} (some : parts ≠ [])
    (goesOn : ∀ part ∈ parts, ∀ done, Reads (here done) (tokens part ++ [.symbol .comma]) (here (part :: done)))
    (closes : ∀ part ∈ parts, ∀ done, Reads (here done) (tokens part ++ [.symbol closing]) (behind (part :: done)))
    (done : List α) :
    Reads (here done) (separated (parts.map tokens) ++ [.symbol closing]) (behind (parts.reverse ++ done)) := by
  induction parts generalizing done with
  | nil => exact absurd rfl some
  | cons part rest ih =>
    rw [List.reverse_cons, List.append_assoc, List.singleton_append]
    cases rest with
    | nil => exact closes part List.mem_cons_self done
    | cons next others =>
      have read := goesOn part List.mem_cons_self done
      have later := ih (by simp) (fun other member => goesOn other (List.mem_cons_of_mem _ member))
        (fun other member => closes other (List.mem_cons_of_mem _ member)) (part :: done)
      have whole := read.append later
      simpa only [List.map_cons, separated, List.append_assoc, List.cons_append, List.nil_append] using whole

theorem readsAs_list {items : List Expr}
    (each : ∀ item ∈ items, ReadsAs (written isFilter item) item (precedence isFilter item)) :
    ReadsAs (written isFilter (.list items)) (.list items) .access := by
  intro stack _
  refine ⟨_, .cons rfl ?_, .of_rests (rests_after stack (.list items) true) fun _ => rfl⟩
  cases items with
  | nil => exact .single rfl
  | cons item rest =>
    have read := reads_separated .bracketClose (fun done => .start (.list done :: stack))
      (fun done => .after stack (.list done.reverse) true) (List.cons_ne_nil item rest)
      (fun e among done => (each e among).reads_bracket (by rintro frame ⟨⟩; trivial) (by decide) rfl)
      (fun e among done => (each e among).reads_bracket (by rintro frame ⟨⟩; trivial) (by decide) rfl) []
    rw [← writtenItems_eq_map, List.append_nil, List.reverse_reverse] at read
    exact read

/-- The key of a mapping and what separates it from its value. -/
theorem reads_key {key : Expr} (reads : ReadsAs (written isFilter key) key (precedence isFilter key))
    (stack : Stack) (entries : List (Expr × Expr)) :
    Reads (.key stack entries) (keyTokens key (written isFilter key) ++ [.symbol .colon])
      (.start (.value entries key :: stack)) := by
  have grouped : Reads (.key stack entries) (inParens (written isFilter key) ++ [.symbol .colon])
      (.start (.value entries key :: stack)) := by
    refine .append (.cons rfl (reads_group reads (.key entries :: stack))) (.single ?_)
    rfl
  unfold keyTokens
  split
  · split
    · rename_i name _
      have named : step (.key stack entries) (.name name.toList) = .ok (.keyName stack entries name) := by
        rw [step, String.ofList_toList]
      exact .cons named (.single rfl)
    · exact grouped
  · exact grouped

/-- An entry of a mapping and what separates it from the next one or ends the mapping. -/
theorem reads_entry {key value : Expr} (readsKey : ReadsAs (written isFilter key) key (precedence isFilter key))
    (readsValue : ReadsAs (written isFilter value) value (precedence isFilter value)) {stack : Stack}
    {entries : List (Expr × Expr)} {s : Symbol} {next : State}
    (bracket : s ∈ [.parenClose, .bracketClose, .braceClose, .comma, .colon])
    (closed : closeBracket (.value entries key :: stack) value s = .ok next) :
    Reads (.key stack entries)
      (keyTokens key (written isFilter key) ++ .symbol .colon :: written isFilter value ++ [.symbol s]) next := by
  have readValue : Reads (.start (.value entries key :: stack)) (written isFilter value ++ [.symbol s]) next :=
    readsValue.reads_bracket (by rintro frame ⟨⟩; trivial) bracket closed
  have whole := (reads_key readsKey stack entries).append readValue
  rwa [List.append_assoc, List.singleton_append, ← List.cons_append, ← List.append_assoc] at whole

theorem readsAs_map {entries : List (Expr × Expr)}
    (keys : ∀ entry ∈ entries, ReadsAs (written isFilter entry.1) entry.1 (precedence isFilter entry.1))
    (values : ∀ entry ∈ entries, ReadsAs (written isFilter entry.2) entry.2 (precedence isFilter entry.2)) :
    ReadsAs (written isFilter (.map entries)) (.map entries) .access := by
  intro stack _
  refine ⟨_, .cons rfl ?_, .of_rests (rests_after stack (.map entries) true) fun _ => rfl⟩
  cases entries with
  | nil => exact .single rfl
  | cons entry rest =>
    have read := reads_separated .braceClose (.key stack) (fun done => .after stack (.map done.reverse) true)
      (List.cons_ne_nil entry rest)
      (fun e among done => reads_entry (keys e among) (values e among) (by decide) rfl)
      (fun e among done => reads_entry (keys e among) (values e among) (by decide) rfl) []
    rw [← writtenEntries_eq_map, List.append_nil, List.reverse_reverse] at read
    exact read

/-- Tokens that cannot be taken for the end of a call or for a keyword in front of an argument. -/
def Opens (tokens : List Token) : Prop :=
  ∃ first rest, tokens = first :: rest ∧ first ≠ .symbol .parenClose ∧ first ≠ .symbol .assign ∧
    ∀ spelling, first = .name spelling → rest.head? ≠ some (.symbol .assign)

theorem Opens.append {tokens more : List Token} (opens : Opens tokens)
    (other : more.head? ≠ some (.symbol .assign)) :
    Opens (tokens ++ more) := by
  obtain ⟨first, rest, rfl, noEnd, noAssign, noKeyword⟩ := opens
  refine ⟨first, rest ++ more, rfl, noEnd, noAssign, fun spelling named => ?_⟩
  cases rest with
  | nil => exact other
  | cons next others => exact noKeyword spelling named

/-- A name turns out to be an operand only by what follows it, but that is read as if it had been known. -/
theorem followName_eq {stack : Stack} {name : String} {state : State} (starts : startName stack name = some state)
    (token : Token) : followName stack name token = step state token := by
  rw [followName, starts]
  unfold startName at starts
  split at starts <;> try split at starts
  all_goals cases starts
  case h_8 => simp only [step]
  all_goals rfl

/-- Where an argument without a keyword may start, an operand is read as it is elsewhere. -/
theorem Reads.of_start {tokens : List Token} {stack : Stack} {pending : PendingCall}
    {args : List (Option String × Expr)} {next : State} (opens : Opens tokens)
    (read : Reads (.start (.argument pending args none :: stack)) tokens next) (follows : tokens.length ≠ 1) :
    Reads (.argument stack pending args) tokens next := by
  obtain ⟨first, rest, rfl, noEnd, _, noKeyword⟩ := opens
  obtain ⟨middle, starts, later⟩ := read.uncons
  have started : startOperand (.argument pending args none :: stack) first = .ok middle := by
    rw [← starts]
    simp only [step]
  cases first with
  | name spelling =>
    cases rest with
    | nil => exact absurd rfl follows
    | cons second others =>
      obtain ⟨behind, stepped, latest⟩ := later.uncons
      refine .cons rfl (.cons ?_ latest)
      have isOperand : startName (.argument pending args none :: stack) (String.ofList spelling) = some middle := by
        simp only [startOperand] at started
        split at started
        · cases started
          assumption
        · cases started
      have positional : second ≠ .symbol .assign := fun assign => noKeyword spelling rfl (congrArg some assign)
      rw [← stepped, ← followName_eq isOperand]
      simp only [step]
  | symbol s =>
    refine .cons ?_ later
    rw [← started]
    simp only [step]
  | number spelling | text content => exact .cons started later

/-- One argument and what follows it. -/
theorem reads_argument {keyword : Option String} {value : Expr}
    (reads : ReadsAs (written isFilter value) value (precedence isFilter value))
    (opens : Opens (written isFilter value)) {stack : Stack} {pending : PendingCall}
    {args : List (Option String × Expr)} {s : Symbol} {next : State}
    (bracket : s ∈ [.parenClose, .bracketClose, .braceClose, .comma, .colon])
    (closed : closeBracket (.argument pending args keyword :: stack) value s = .ok next) :
    Reads (.argument stack pending args) (argumentTokens keyword (written isFilter value) ++ [.symbol s]) next := by
  have behind : Reads (.start (.argument pending args keyword :: stack))
    (written isFilter value ++ [.symbol s]) next :=
    reads.reads_bracket (by rintro frame ⟨⟩; trivial) bracket closed
  cases keyword with
  | none =>
    have noAssign : Token.symbol s ≠ .symbol .assign := by
      rintro ⟨⟩
      exact absurd bracket (by decide)
    refine .of_start (opens.append fun assign => noAssign (Option.some.inj assign)) behind ?_
    obtain ⟨first, rest, begins, _⟩ := opens
    simp [argumentTokens, begins]
  | some name =>
    have named : step (.argument stack pending args) (.name name.toList) =
        .ok (.argumentName stack pending args name) := by
      rw [step, String.ofList_toList]
    exact .cons named (.cons rfl behind)

theorem reads_arguments {args : List (Option String × Expr)}
    (each : ∀ arg ∈ args, ReadsAs (written isFilter arg.2) arg.2 (precedence isFilter arg.2))
    (opens : ∀ arg ∈ args, Opens (written isFilter arg.2)) (stack : Stack) (pending : PendingCall) :
    Reads (.argument stack pending []) (separated (writtenArguments isFilter args) ++ [.symbol .parenClose])
      (.after stack (.call pending.name pending.input args) (!pending.isFilter)) := by
  cases args with
  | nil => exact .single rfl
  | cons arg rest =>
    have read := reads_separated .parenClose (.argument stack pending)
      (fun done => .after stack (.call pending.name pending.input done.reverse) (!pending.isFilter))
      (List.cons_ne_nil arg rest)
      (fun e among done => reads_argument (each e among) (opens e among) (by decide) rfl)
      (fun e among done => reads_argument (each e among) (opens e among) (by decide) rfl) []
    rw [← writtenArguments_eq_map, List.append_nil, List.reverse_reverse] at read
    exact read

theorem readsAs_call {input : Expr} {args : List (Option String × Expr)} (name : String)
    (reads : ReadsAs (written isFilter input) input (precedence isFilter input))
    (each : ∀ arg ∈ args, ReadsAs (written isFilter arg.2) arg.2 (precedence isFilter arg.2))
    (opens : ∀ arg ∈ args, Opens (written isFilter arg.2)) :
    ReadsAs (written isFilter (.call name input args)) (.call name input args)
      (precedence isFilter (.call name input args)) := by
  intro stack admits
  simp only [written, precedence] at admits ⊢
  split at admits
  · rename_i filters
    rw [if_pos filters, if_pos filters]
    obtain ⟨rank, above, middle, readInput, completes⟩ := reads_operandTokens reads (by decide) admits
    have named : step (.pipe stack input) (.name name.toList) = .ok (.filter stack input name) := by
      rw [step, String.ofList_toList]
    have read := readInput.append (.cons (completes.mono above).step_bar (.single named))
    cases args with
    | nil => exact ⟨_, read.append (.nil _), .of_rests (rests_filter stack input name) (by decide)⟩
    | cons arg rest =>
      have readArguments := reads_arguments each opens stack ⟨name, input, true⟩
      exact ⟨_, read.append (.cons rfl readArguments),
        .of_rests (rests_after stack (.call name input (arg :: rest)) false) (by decide)⟩
  · rename_i methods
    rw [if_neg methods, if_neg methods]
    obtain ⟨rank, above, middle, readInput, completes⟩ := reads_operandTokens reads (Nat.le_refl _) admits
    have named : step (.dot stack input) (.name name.toList) = .ok (.attribute stack input name) := by
      rw [step, String.ofList_toList]
    have read := readInput.append (.cons (completes.mono above).step_dot (.single named))
    have readArguments := reads_arguments each opens stack ⟨name, input, false⟩
    exact ⟨_, read.append (.cons rfl readArguments),
      .of_rests (rests_after stack (.call name input args) true) fun _ => rfl⟩

theorem opens_cons {first : Token} {rest : List Token} (noEnd : first ≠ .symbol .parenClose)
    (noAssign : first ≠ .symbol .assign) (behind : rest.head? ≠ some (.symbol .assign)) : Opens (first :: rest) :=
  ⟨first, rest, rfl, noEnd, noAssign, fun _ _ => behind⟩

theorem opens_symbol {s : Symbol} (noEnd : s ≠ .parenClose) (noAssign : s ≠ .assign) (rest : List Token) :
    Opens (.symbol s :: rest) :=
  ⟨.symbol s, rest, rfl, fun same => noEnd (Token.symbol.inj same),
    fun same => noAssign (Token.symbol.inj same), nofun⟩

theorem Opens.head?_ne {tokens : List Token} (opens : Opens tokens) : tokens.head? ≠ some (.symbol .assign) := by
  obtain ⟨first, rest, rfl, _, noAssign, _⟩ := opens
  exact fun same => noAssign (Option.some.inj same)

theorem opens_operandTokens {tokens : List Token} (opens : Opens tokens) (least : Nat) (p : Precedence) :
    Opens (operandTokens least p tokens) := by
  unfold operandTokens
  split
  · exact opens_symbol (by decide) (by decide) _
  · exact opens

theorem opens_operationTokens {left right : List Token} (opens : Opens left) (op : Operator) (p q : Precedence) :
    Opens (operationTokens op p q left right) := by
  rw [operationTokens, List.append_assoc]
  refine (opens_operandTokens opens _ p).append ?_
  cases op with
  | binary op => cases op <;> nofun
  | _ => nofun

theorem opens_written {e : Expr} (writable : Writable e) : Opens (written isFilter e) := by
  induction writable with
  | null => exact opens_cons nofun nofun nofun
  | bool b => cases b <;> exact opens_cons nofun nofun nofun
  | int _ => exact opens_cons nofun nofun nofun
  | str _ => exact opens_cons nofun nofun nofun
  | var _ _ _ => exact opens_cons nofun nofun nofun
  | list _ _ => exact opens_symbol (by decide) (by decide) _
  | map _ _ _ _ => exact opens_symbol (by decide) (by decide) _
  | neg _ _ => exact opens_symbol (by decide) (by decide) _
  | not _ ih => exact opens_cons nofun nofun (opens_operandTokens ih _ _).head?_ne
  | or _ _ left _ => exact opens_operationTokens left _ _ _
  | and _ _ left _ => exact opens_operationTokens left _ _ _
  | binary op _ _ left _ => exact opens_operationTokens left _ _ _
  | @cond body condition otherwise _ _ _ ih _ _ =>
    cases otherwise with
    | none => exact (opens_operandTokens ih _ _).append nofun
    | some e =>
      rw [written, List.append_assoc]
      exact (opens_operandTokens ih _ _).append (by simp)
  | attr _ _ ih => exact (opens_operandTokens ih _ _).append nofun
  | index _ _ ih _ =>
    rw [written, List.append_assoc]
    exact (opens_operandTokens ih _ _).append (by simp)
  | call _ _ _ _ ih _ =>
    rw [written]
    split
    · rw [List.append_assoc]
      exact (opens_operandTokens ih _ _).append (by simp)
    · rw [List.append_assoc]
      exact (opens_operandTokens ih _ _).append (by simp)

theorem readsAs_written {e : Expr} (writable : Writable e) :
    ReadsAs (written isFilter e) e (precedence isFilter e) := by
  induction writable with
  | null => exact readsAs_literal fun _ => rfl
  | bool b => cases b <;> exact readsAs_literal fun _ => rfl
  | int natural => exact readsAs_int natural
  | str s => exact readsAs_str s
  | var _ noKeyword noLiteral => exact readsAs_var noKeyword noLiteral
  | list _ each => exact readsAs_list each
  | map _ _ keys values => exact readsAs_map keys values
  | neg _ ih => exact readsAs_unary .negate (fun _ => rfl) ih
  | not _ ih => exact readsAs_unary .not (fun _ => rfl) ih
  | or _ _ left right => exact readsAs_operation .or left right
  | and _ _ left right => exact readsAs_operation .and left right
  | binary op _ _ left right => exact readsAs_operation (.binary op) left right
  | @cond body condition otherwise _ _ _ first second third =>
    cases otherwise with
    | none => exact readsAs_cond first second
    | some e => exact readsAs_cond_else first second (third e rfl)
  | attr _ _ ih => exact readsAs_attr ih _
  | index _ _ target position => exact readsAs_index target position
  | call _ _ args _ input each => exact readsAs_call _ input each fun arg member => opens_written (args arg member)

theorem isProper_inParens {tokens : List Token} (proper : ∀ token ∈ tokens, token.IsProper) :
    ∀ token ∈ inParens tokens, token.IsProper := by
  intro token member
  simp only [inParens, List.cons_append, List.mem_cons, List.mem_append, List.not_mem_nil, or_false] at member
  obtain rfl | inside | rfl := member
  · trivial
  · exact proper token inside
  · trivial

theorem isProper_operandTokens {tokens : List Token} (proper : ∀ token ∈ tokens, token.IsProper) (least : Nat)
    (p : Precedence) : ∀ token ∈ operandTokens least p tokens, token.IsProper := by
  unfold operandTokens
  split
  · exact isProper_inParens proper
  · exact proper

theorem isProper_separated {parts : List (List Token)}
    (proper : ∀ tokens ∈ parts, ∀ token ∈ tokens, token.IsProper) : ∀ token ∈ separated parts, token.IsProper := by
  fun_induction separated parts with
  | case1 => nofun
  | case2 tokens => exact proper tokens List.mem_cons_self
  | case3 tokens rest _ ih =>
    intro token member
    rw [List.mem_append, List.mem_cons] at member
    obtain here | rfl | later := member
    · exact proper tokens List.mem_cons_self token here
    · trivial
    · exact ih (fun other among => proper other (List.mem_cons_of_mem _ among)) token later

theorem isProper_operator (op : Operator) : ∀ token ∈ op.tokens, token.IsProper := by
  cases op with
  | binary op => cases op <;> decide
  | _ => decide

theorem isProper_operationTokens {left right : List Token} (op : Operator) (p q : Precedence)
    (first : ∀ token ∈ left, token.IsProper) (second : ∀ token ∈ right, token.IsProper) :
    ∀ token ∈ operationTokens op p q left right, token.IsProper := by
  rw [operationTokens, List.forall_mem_append, List.forall_mem_append]
  exact ⟨⟨isProper_operandTokens first _ p, isProper_operator op⟩, isProper_operandTokens second _ q⟩

theorem isProper_keyTokens {tokens : List Token} (key : Expr) (proper : ∀ token ∈ tokens, token.IsProper) :
    ∀ token ∈ keyTokens key tokens, token.IsProper := by
  unfold keyTokens
  split
  · split
    · rename_i identifier
      rw [List.forall_mem_singleton]
      exact identifier
    · exact isProper_inParens proper
  · exact isProper_inParens proper

theorem isProper_argumentTokens {keyword : Option String} {tokens : List Token}
    (named : ∀ name ∈ keyword, isIdentifier name.toList = true) (proper : ∀ token ∈ tokens, token.IsProper) :
    ∀ token ∈ argumentTokens keyword tokens, token.IsProper := by
  cases keyword with
  | none => exact proper
  | some name =>
    simp only [argumentTokens, List.forall_mem_cons]
    exact ⟨named name rfl, trivial, proper⟩

theorem isProper_written {e : Expr} (writable : Writable e) : ∀ token ∈ written isFilter e, token.IsProper := by
  induction writable with
  | null => exact List.forall_mem_singleton.mpr (by decide)
  | bool b => cases b <;> exact List.forall_mem_singleton.mpr (by decide)
  | int _ => exact List.forall_mem_singleton.mpr (isProper_digits _)
  | str _ => exact List.forall_mem_singleton.mpr trivial
  | var identifier _ _ => exact List.forall_mem_singleton.mpr identifier
  | list _ each =>
    rw [written, writtenItems_eq_map, List.forall_mem_append, List.forall_mem_cons, List.forall_mem_singleton]
    refine ⟨⟨trivial, isProper_separated ?_⟩, trivial⟩
    rw [List.forall_mem_map]
    exact each
  | map _ _ keys values =>
    rw [written, writtenEntries_eq_map, List.forall_mem_append, List.forall_mem_cons, List.forall_mem_singleton]
    refine ⟨⟨trivial, isProper_separated ?_⟩, trivial⟩
    rw [List.forall_mem_map]
    intro entry member
    rw [List.forall_mem_append, List.forall_mem_cons]
    exact ⟨isProper_keyTokens entry.1 (keys entry member), trivial, values entry member⟩
  | neg _ ih =>
    rw [written, List.forall_mem_cons]
    exact ⟨trivial, isProper_operandTokens ih _ _⟩
  | not _ ih =>
    rw [written, List.forall_mem_cons]
    exact ⟨by decide, isProper_operandTokens ih _ _⟩
  | or _ _ left right => exact isProper_operationTokens _ _ _ left right
  | and _ _ left right => exact isProper_operationTokens _ _ _ left right
  | binary op _ _ left right => exact isProper_operationTokens _ _ _ left right
  | @cond body condition otherwise _ _ _ first second third =>
    cases otherwise with
    | none =>
      rw [written, List.forall_mem_append, List.forall_mem_cons]
      exact ⟨isProper_operandTokens first _ _, by decide, isProper_operandTokens second _ _⟩
    | some e =>
      rw [written, List.forall_mem_append, List.forall_mem_append, List.forall_mem_cons, List.forall_mem_cons]
      exact ⟨⟨isProper_operandTokens first _ _, by decide, isProper_operandTokens second _ _⟩, by decide,
        third e rfl⟩
  | attr _ identifier ih =>
    rw [written, List.forall_mem_append, List.forall_mem_cons, List.forall_mem_singleton]
    exact ⟨isProper_operandTokens ih _ _, trivial, identifier⟩
  | index _ _ target position =>
    rw [written, List.forall_mem_append, List.forall_mem_append, List.forall_mem_cons, List.forall_mem_singleton]
    exact ⟨⟨isProper_operandTokens target _ _, trivial, position⟩, trivial⟩
  | @call name input args identifier _ _ keywords ih each =>
    have arguments : ∀ token ∈ inParens (separated (writtenArguments isFilter args)), token.IsProper := by
      rw [writtenArguments_eq_map]
      refine isProper_inParens (isProper_separated ?_)
      rw [List.forall_mem_map]
      exact fun arg member => isProper_argumentTokens (keywords arg member) (each arg member)
    rw [written]
    split
    · rw [List.forall_mem_append, List.forall_mem_append, List.forall_mem_cons, List.forall_mem_singleton]
      refine ⟨⟨isProper_operandTokens ih _ _, trivial, identifier⟩, ?_⟩
      split
      · nofun
      · exact arguments
    · rw [List.forall_mem_append, List.forall_mem_append, List.forall_mem_cons, List.forall_mem_singleton]
      exact ⟨⟨isProper_operandTokens ih _ _, trivial, identifier⟩, arguments⟩

/-- An expression is what its own text is read as, whichever of its calls are written as filters. -/
theorem parse_print (isFilter : String → Bool) {e : Expr} (writable : Writable e) :
    parse (print isFilter e) = .ok e := by
  have proper : ∀ token ∈ written isFilter e, token.IsProper := isProper_written writable
  have reads : ReadsAs (written isFilter e) e (precedence isFilter e) := readsAs_written writable
  obtain ⟨tokens, lexed, same⟩ := spells_layout proper 0
  obtain ⟨state, read, completes⟩ := reads [] nofun
  rw [← same] at read
  rw [parse, print, String.toList_ofList, Expr.tokens, lexed]
  simp only [read.run, bind, Except.bind, completes.finish?]

theorem parse_nestedOperands :
    let text := "(a if not x in [1, - 2 * (3 - y)] else null) ~ " ++
      "\x7bif: 'it\\'s', ('two words'): (p or q)[0] | default(by = true)\x7d.keys().size"
    let e : Expr := .binary .concat
      (.cond (.var "a") (.not (.binary .member (.var "x") (.list [.lit (.int 1),
        .binary .multiply (.neg (.lit (.int 2))) (.binary .subtract (.lit (.int 3)) (.var "y"))])))
          (some (.lit .null)))
      (.attr (.call "keys" (.map [(.lit (.str "if"), .lit (.str "it's")), (.lit (.str "two words"),
        .call "default" (.index (.or (.var "p") (.var "q")) (.lit (.int 0))) [(some "by", .lit (.bool true))])])
          []) "size")
    Writable e ∧ print (· == "default") e = text ∧ parse text = .ok e := by
  intro text e
  have first : Writable (.cond (.var "a") (.not (.binary .member (.var "x") (.list [.lit (.int 1),
      .binary .multiply (.neg (.lit (.int 2))) (.binary .subtract (.lit (.int 3)) (.var "y"))])))
      (some (.lit .null))) := by
    refine .cond (.var (by decide) (by decide) (by decide))
      (.not (.binary _ (.var (by decide) (by decide) (by decide)) (.list ?_))) (by rintro _ ⟨⟩; exact .null)
    rw [List.forall_mem_cons, List.forall_mem_singleton]
    exact ⟨.int (by decide), .binary _ (.neg (.int (by decide)))
      (.binary _ (.int (by decide)) (.var (by decide) (by decide) (by decide)))⟩
  have fallback : Writable (.call "default" (.index (.or (.var "p") (.var "q")) (.lit (.int 0)))
      [(some "by", .lit (.bool true))]) := by
    refine .call (by decide) (.index (.or (.var (by decide) (by decide) (by decide))
      (.var (by decide) (by decide) (by decide))) (.int (by decide))) ?_ ?_
    · exact List.forall_mem_singleton.mpr (.bool true)
    · exact List.forall_mem_singleton.mpr (by rintro _ ⟨⟩; decide)
  have writable : Writable e := by
    refine .binary _ first (.attr (.call (by decide) (.map ?_ ?_) nofun nofun) (by decide))
    · rw [List.forall_mem_cons, List.forall_mem_singleton]
      exact ⟨.str _, .str _⟩
    · rw [List.forall_mem_cons, List.forall_mem_singleton]
      exact ⟨.str _, fallback⟩
  have spelled : print (· == "default") e = text := by decide +kernel
  refine ⟨writable, spelled, ?_⟩
  rw [← spelled]
  exact parse_print _ writable

end ConfigWeave.Expr
