import SlotTree.Proofs.Reading.Steps
import SlotTree.Proofs.Tree.Fill

/-!
# The grammar of scripts

The readers of `SlotTree.Reading` are driven by tables of binding powers, by a look at
the whole line before it is read and by bounds on nesting.  None of that is visible in
the language that they accept, and this module writes that language down: which stretches
of tokens are annotations, expressions, arguments, statements and scripts, and which tree
each of them denotes.

    script     :=  ( statement end )*
    end        :=  newline  |  ";" [ newline ]  |  nothing, where the script ends
    statement  :=  expression  |  name ":" annotation [ "=" expression ]
    expression :=  atom  |  expression "(" arguments ")"
    atom       :=  "True" | "False" | "None" | number | string+ | name | "(" expression ")"
    arguments  :=  nothing  |  argument  |  argument "," arguments
    argument   :=  expression  |  name "=" expression
    annotation :=  name  |  "None"  |  annotation "[" annotation "]"

Every rule also says what the phrase denotes, and with it what must hold beyond the form:
a number has a value, a name in an annotation stands for a type and only a list type has
items, the arguments of a call can be bound to what is called, and a value fits where it
is put.  Expressions, single arguments and lists of arguments are three sorts of one
relation (`Phrase`), so that a fact about all of them is proved by one induction.

The rest of the module is what can be read off a phrase without reading it: it holds no
end of the list, it starts with a token that opens an expression, and its brackets are
balanced, which is why a look along the line classifies it as it does.
-/

namespace SlotTree
namespace Reading

/-! ## Annotations -/

/-- The stretch of source from the first token to the last one. -/
def stretch (first : Token) (more : List Token) : Span :=
  ⟨first.span.start, ((first :: more).getLast (List.cons_ne_nil _ _)).span.stop⟩

/-- The tokens are an annotation that denotes the type. -/
inductive DerivesType : List Token → Ty → Prop where
  | symbol {t : Token} {constructor : Constructor} {type : Ty}
      (kind : t.kind = .identifier)
      (builtin : Registry.default.find? t.text = some constructor)
      (isType : (constructor t.span).asType? = some type) : DerivesType [t] type
  | noneType {t : Token} (kind : t.kind = .reserved .none_) : DerivesType [t] (.plain .noneType)
  | subscript {ts us : List Token} {opening closing : Token} {left item : Ty}
      (whole : DerivesType ts left) (isList : left.head = .list)
      (openKind : opening.kind = .openBracket) (inner : DerivesType us item)
      (closeKind : closing.kind = .closeBracket) :
      DerivesType (ts ++ opening :: (us ++ [closing])) (.list item)

/-! ## Expressions and arguments -/

/-- The token is a constant of one token with the given value. -/
inductive Constant : Token → Literal → Prop where
  | true_ {t : Token} (kind : t.kind = .reserved .true_) : Constant t (.bool true)
  | false_ {t : Token} (kind : t.kind = .reserved .false_) : Constant t (.bool false)
  | none_ {t : Token} (kind : t.kind = .reserved .none_) : Constant t .none
  | number {t : Token} {v : Literal} (kind : t.kind = .number)
      (value : Number.read t.text = .ok v) : Constant t v

/-- What a name stands for: the builtin of that name, or else a variable. -/
def mention (t : Token) : Expr :=
  match Registry.default.find? t.text with
  | some constructor => constructor t.span
  | none => .ofName t.text t.span

/-- What a stretch of tokens within an expression denotes. -/
inductive Phrase where
  | expr (e : Expr)
  | argument (a : Argument)
  | arguments (args : List Argument)

/-- The tokens are an expression, an argument or a list of arguments with the given
denotation. -/
inductive Derives : List Token → Phrase → Prop where
  | constant {t : Token} {v : Literal} (value : Constant t v) :
      Derives [t] (.expr (.ofLiteral v t.span))
  | text {t : Token} {ts : List Token} (kinds : ∀ u ∈ t :: ts, u.kind = .string) :
      Derives (t :: ts)
        (.expr (.ofLiteral (.str (String.join ((t :: ts).map Token.text))) (stretch t ts)))
  | name {t : Token} (kind : t.kind = .identifier) : Derives [t] (.expr (mention t))
  | group {ts : List Token} {opening closing : Token} {e : Expr}
      (openKind : opening.kind = .openParen) (inner : Derives ts (.expr e))
      (closeKind : closing.kind = .closeParen) :
      Derives (opening :: (ts ++ [closing])) (.expr e)
  | call {ts us : List Token} {opening closing : Token} {left callee bound : Expr}
      {args : List Argument}
      (whole : Derives ts (.expr left)) (openKind : opening.kind = .openParen)
      (inner : Derives us (.arguments args)) (closeKind : closing.kind = .closeParen)
      (called : calleeOf left closing.span.stop = .ok callee)
      (binds : bindArguments closing.span.start callee args = .ok bound) :
      Derives (ts ++ opening :: (us ++ [closing])) (.expr bound.markInvoked)
  | positional {ts : List Token} {e : Expr} (value : Derives ts (.expr e)) :
      Derives ts (.argument ⟨none, e⟩)
  | keyword {ts : List Token} {target equals : Token} {e : Expr}
      (kind : target.kind = .identifier) (equalsKind : equals.kind = .assignment)
      (value : Derives ts (.expr e)) :
      Derives (target :: equals :: ts) (.argument ⟨some target.text, e⟩)
  | noArguments : Derives [] (.arguments [])
  | lastArgument {ts : List Token} {a : Argument} (last : Derives ts (.argument a)) :
      Derives ts (.arguments [a])
  | moreArguments {ts us : List Token} {comma : Token} {a : Argument} {args : List Argument}
      (first : Derives ts (.argument a)) (commaKind : comma.kind = .comma)
      (rest : Derives us (.arguments args)) :
      Derives (ts ++ comma :: us) (.arguments (a :: args))

/-! ## Statements and scripts -/

/-- The tokens are a statement, without its end, with the given denotation. -/
inductive DerivesStmt : List Token → Stmt → Prop where
  | expression {ts : List Token} {e : Expr} (value : Derives ts (.expr e))
      (fits : e.valueType.fits (.plain .object) = true) :
      DerivesStmt ts (.expression (.holding (.plain .object) e) e.span)
  | declaration {target colon first : Token} {more : List Token} {type : Ty}
      (kind : target.kind = .identifier) (colonKind : colon.kind = .colon)
      (declared : DerivesType (first :: more) type) :
      DerivesStmt (target :: colon :: first :: more)
        (.declaration (.ofLiteral (.str target.text)) (Stmt.typeSlot type (stretch first more) none)
          ⟨target.span.start, (stretch first more).stop⟩)
  | definition {target colon first equals : Token} {more ts : List Token} {type : Ty} {e : Expr}
      (kind : target.kind = .identifier) (colonKind : colon.kind = .colon)
      (declared : DerivesType (first :: more) type) (equalsKind : equals.kind = .assignment)
      (value : Derives ts (.expr e)) (fits : e.valueType.fits type = true) :
      DerivesStmt (target :: colon :: first :: (more ++ equals :: ts))
        (.definition (.ofLiteral (.str target.text))
          (Stmt.typeSlot type (stretch first more) (some (.holding type e)))
          ⟨target.span.start, e.span.stop⟩)

/-- The tokens end a statement. -/
inductive LineEnd : List Token → Prop where
  | newline {t : Token} (kind : t.kind = .newline) : LineEnd [t]
  | semicolon {t : Token} (kind : t.kind = .semicolon) : LineEnd [t]
  | semicolonNewline {t u : Token} (kind : t.kind = .semicolon) (kind' : u.kind = .newline) :
      LineEnd [t, u]

/-- The tokens are a script with the given statements. Only the last statement may stand
without an end, since what follows it then is the end of the script. -/
inductive DerivesScript : List Token → List Stmt → Prop where
  | nil : DerivesScript [] []
  | last {ts : List Token} {s : Stmt} (stmt : DerivesStmt ts s) : DerivesScript ts [s]
  | cons {ts es us : List Token} {s : Stmt} {ss : List Stmt} (stmt : DerivesStmt ts s)
      (ends : LineEnd es) (rest : DerivesScript us ss) :
      DerivesScript (ts ++ (es ++ us)) (s :: ss)

/-- The tokens of a list before the first one that says that the list ends. -/
def beforeEnd (tokens : List Token) : List Token := tokens.takeWhile fun t => t.kind != .eof

/-- Where a list of tokens ends: at the first token that says so, or else after the last
one. -/
def endPosition (tokens : List Token) (file : String) : Position :=
  match tokens.find? fun t => t.kind == .eof with
  | some t => t.span.start
  | none => (tokens.getLast?.map fun t => t.span.stop).getD ⟨0, file⟩

/-! ## What a phrase never holds -/

theorem DerivesType.kind_ne_eof {ts : List Token} {type : Ty} (h : DerivesType ts type) :
    ∀ t ∈ ts, t.kind ≠ .eof := by
  induction h with
  | symbol kind _ _ => simp [kind]
  | noneType kind => simp [kind]
  | subscript _ _ openKind _ closeKind ih₁ ih₂ =>
    intro t ht
    simp only [List.mem_append, List.mem_cons, List.not_mem_nil, or_false] at ht
    rcases ht with ht | rfl | ht | rfl
    · exact ih₁ t ht
    · simp [openKind]
    · exact ih₂ t ht
    · simp [closeKind]

theorem Constant.kind_ne_eof {t : Token} {v : Literal} (h : Constant t v) : t.kind ≠ .eof := by
  cases h <;> simp_all

/-- A phrase holds no token that says that the list ends. -/
theorem Derives.kind_ne_eof {ts : List Token} {p : Phrase} (h : Derives ts p) :
    ∀ t ∈ ts, t.kind ≠ .eof := by
  induction h with
  | constant value =>
    intro t ht
    rw [List.mem_singleton.mp ht]
    exact value.kind_ne_eof
  | text kinds =>
    intro t ht
    simp [kinds t ht]
  | name kind => simp [kind]
  | group openKind _ closeKind ih =>
    intro t ht
    simp only [List.mem_append, List.mem_cons, List.not_mem_nil, or_false] at ht
    rcases ht with rfl | ht | rfl
    · simp [openKind]
    · exact ih t ht
    · simp [closeKind]
  | call _ openKind _ closeKind _ _ ih₁ ih₂ =>
    intro t ht
    simp only [List.mem_append, List.mem_cons, List.not_mem_nil, or_false] at ht
    rcases ht with ht | rfl | ht | rfl
    · exact ih₁ t ht
    · simp [openKind]
    · exact ih₂ t ht
    · simp [closeKind]
  | positional _ ih => exact ih
  | keyword kind equalsKind _ ih =>
    intro t ht
    simp only [List.mem_cons] at ht
    rcases ht with rfl | rfl | ht
    · simp [kind]
    · simp [equalsKind]
    · exact ih t ht
  | noArguments => simp
  | lastArgument _ ih => exact ih
  | moreArguments _ commaKind _ ih₁ ih₂ =>
    intro t ht
    simp only [List.mem_append, List.mem_cons] at ht
    rcases ht with ht | rfl | ht
    · exact ih₁ t ht
    · simp [commaKind]
    · exact ih₂ t ht

theorem DerivesStmt.kind_ne_eof {ts : List Token} {s : Stmt} (h : DerivesStmt ts s) :
    ∀ t ∈ ts, t.kind ≠ .eof := by
  cases h with
  | expression value _ => exact value.kind_ne_eof
  | declaration kind colonKind declared =>
    intro t ht
    rw [List.mem_cons, List.mem_cons] at ht
    rcases ht with rfl | rfl | ht
    · simp [kind]
    · simp [colonKind]
    · exact declared.kind_ne_eof t ht
  | definition kind colonKind declared equalsKind value _ =>
    intro t ht
    rw [List.mem_cons, List.mem_cons, ← List.cons_append, List.mem_append] at ht
    rcases ht with rfl | rfl | ht | ht
    · simp [kind]
    · simp [colonKind]
    · exact declared.kind_ne_eof t ht
    · rcases List.mem_cons.mp ht with rfl | ht
      · simp [equalsKind]
      · exact value.kind_ne_eof t ht

theorem LineEnd.kind_ne_eof {es : List Token} (h : LineEnd es) : ∀ t ∈ es, t.kind ≠ .eof := by
  cases h <;> simp_all

theorem DerivesScript.kind_ne_eof {ts : List Token} {body : List Stmt}
    (h : DerivesScript ts body) : ∀ t ∈ ts, t.kind ≠ .eof := by
  induction h with
  | nil => simp
  | last stmt => exact stmt.kind_ne_eof
  | cons stmt ends _ ih =>
    intro t ht
    rw [List.mem_append, List.mem_append] at ht
    rcases ht with ht | ht | ht
    · exact stmt.kind_ne_eof t ht
    · exact ends.kind_ne_eof t ht
    · exact ih t ht

/-! ## How a phrase starts -/

/-- Whether a token of the kind opens an expression of the grammar. -/
def opensExpr : TokenKind → Bool
  | .number | .string | .identifier | .openParen => true
  | .reserved .true_ | .reserved .false_ | .reserved .none_ => true
  | _ => false

/-- The tokens of an expression or an argument start with one that opens an
expression. -/
def Phrase.Opens (ts : List Token) : Phrase → Prop
  | .expr _ | .argument _ => ∃ t us, ts = t :: us ∧ opensExpr t.kind = true
  | .arguments _ => True

theorem Derives.opens {ts : List Token} {p : Phrase} (h : Derives ts p) : p.Opens ts := by
  induction h with
  | constant value => exact ⟨_, _, rfl, by cases value <;> simp_all [opensExpr]⟩
  | text kinds => exact ⟨_, _, rfl, by rw [kinds _ List.mem_cons_self]; rfl⟩
  | name kind => exact ⟨_, _, rfl, by rw [kind]; rfl⟩
  | group openKind _ _ _ => exact ⟨_, _, rfl, by rw [openKind]; rfl⟩
  | call _ _ _ _ _ _ ih _ =>
    obtain ⟨t, us, rfl, ht⟩ := ih
    exact ⟨t, _, rfl, ht⟩
  | positional _ ih => exact ih
  | keyword kind _ _ _ => exact ⟨_, _, rfl, by rw [kind]; rfl⟩
  | noArguments => trivial
  | lastArgument _ _ => trivial
  | moreArguments _ _ _ _ _ => trivial

/-- An expression does not look like a keyword argument: a name at its start is not
followed by an equals sign. -/
def Phrase.Unnamed (ts : List Token) : Phrase → Prop
  | .expr _ => ∀ t u us, ts = t :: u :: us → t.kind = .identifier → u.kind ≠ .assignment
  | _ => True

theorem Derives.unnamed {ts : List Token} {p : Phrase} (h : Derives ts p) : p.Unnamed ts := by
  induction h with
  | constant _ => rintro t u us ⟨⟩
  | text kinds =>
    rintro t u us ⟨rfl, rfl⟩ ht
    rw [kinds u (by simp)]
    decide
  | name _ => rintro t u us ⟨⟩
  | group openKind _ _ _ =>
    intro t u us hts ht
    obtain ⟨rfl, -⟩ := List.cons.inj hts
    rw [openKind] at ht
    cases ht
  | call whole openKind _ _ _ _ ih _ =>
    intro t u us hts ht
    obtain ⟨t', us', rfl, -⟩ := whole.opens
    cases us' with
    | nil =>
      obtain ⟨-, hu⟩ := List.cons.inj hts
      obtain ⟨rfl, -⟩ := List.cons.inj hu
      simp [openKind]
    | cons u' vs' =>
      obtain ⟨rfl, hu⟩ := List.cons.inj hts
      obtain ⟨rfl, -⟩ := List.cons.inj hu
      exact ih t' u' vs' rfl ht
  | _ => trivial

/-- A statement starts with a token that opens an expression. -/
theorem DerivesStmt.opens {ts : List Token} {s : Stmt} (h : DerivesStmt ts s) :
    ∃ t us, ts = t :: us ∧ opensExpr t.kind = true := by
  cases h with
  | expression value _ => exact value.opens
  | declaration kind _ _ => exact ⟨_, _, rfl, by rw [kind]; rfl⟩
  | definition kind _ _ _ _ _ => exact ⟨_, _, rfl, by rw [kind]; rfl⟩

/-- A script that is not empty starts with a token that opens an expression. -/
theorem DerivesScript.opens {ts : List Token} {body : List Stmt} (h : DerivesScript ts body) :
    ts = [] ∨ ∃ t us, ts = t :: us ∧ opensExpr t.kind = true := by
  cases h with
  | nil => exact Or.inl rfl
  | last stmt => exact Or.inr stmt.opens
  | cons stmt _ _ =>
    obtain ⟨t, us, rfl, ht⟩ := stmt.opens
    exact Or.inr ⟨t, _, rfl, ht⟩

/-! ## How a phrase is classified

A look along the line stops only at certain tokens outside of brackets.  None of them
stands in an expression, where equals signs are found between parentheses only, so the
look goes on behind the expression as it started. -/

/-- Whether a look along the line takes notice of a token of the kind. -/
def noticed : TokenKind → Bool
  | .assignment | .augmentedAssignment | .colon | .reserved .lambda_ => true
  | kind => kind.isOpening || kind.isClosing || kind.isLineEnd

theorem classifyFrom_of_not_noticed {depth : Nat} {inLambda : Bool} {t : Token}
    {ts : List Token} (h : noticed t.kind = false) :
    classifyFrom depth inLambda (t :: ts) = classifyFrom depth inLambda ts := by
  rw [classifyFrom]
  generalize t.kind = kind at h
  cases kind with
  | reserved w =>
    cases w <;>
      simp_all [noticed, TokenKind.isOpening, TokenKind.isClosing, TokenKind.isLineEnd]
  | _ => simp_all [noticed, TokenKind.isOpening, TokenKind.isClosing, TokenKind.isLineEnd]

theorem Constant.not_noticed {t : Token} {v : Literal} (h : Constant t v) :
    noticed t.kind = false := by
  cases h with
  | true_ kind | false_ kind | none_ kind => rw [kind]; rfl
  | number kind _ => rw [kind]; rfl

/-- Inside of brackets only brackets are noticed. -/
theorem classifyFrom_inside {depth : Nat} {inLambda : Bool} {t : Token} {ts : List Token}
    (hdepth : 0 < depth) (ho : t.kind.isOpening = false) (hc : t.kind.isClosing = false) :
    classifyFrom depth inLambda (t :: ts) = classifyFrom depth inLambda ts := by
  rw [classifyFrom]
  simp [ho, hc, hdepth]

theorem classifyFrom_openParen {depth : Nat} {inLambda : Bool} {t : Token} {ts : List Token}
    (h : t.kind = .openParen) :
    classifyFrom depth inLambda (t :: ts) = classifyFrom (depth + 1) inLambda ts := by
  rw [classifyFrom, h]
  rfl

theorem classifyFrom_closeParen {depth : Nat} {inLambda : Bool} {t : Token} {ts : List Token}
    (h : t.kind = .closeParen) :
    classifyFrom depth inLambda (t :: ts) = classifyFrom (depth - 1) inLambda ts := by
  rw [classifyFrom, h]
  rfl

/-- A look along the line goes on behind the phrase as it started. Arguments are looked at
only between parentheses. -/
def Phrase.Balanced (ts : List Token) : Phrase → Prop
  | .expr _ => ∀ depth inLambda rest,
      classifyFrom depth inLambda (ts ++ rest) = classifyFrom depth inLambda rest
  | _ => ∀ depth inLambda rest,
      classifyFrom (depth + 1) inLambda (ts ++ rest) = classifyFrom (depth + 1) inLambda rest

theorem Derives.balanced {ts : List Token} {p : Phrase} (h : Derives ts p) :
    p.Balanced ts := by
  induction h with
  | constant value =>
    intro depth inLambda rest
    exact classifyFrom_of_not_noticed value.not_noticed
  | @text t ts kinds =>
    intro depth inLambda rest
    generalize t :: ts = us at kinds
    induction us with
    | nil => rfl
    | cons u us ih =>
      have hu : noticed u.kind = false := by rw [kinds u List.mem_cons_self]; rfl
      rw [List.cons_append, classifyFrom_of_not_noticed hu,
        ih fun v hv => kinds v (List.mem_cons_of_mem u hv)]
  | name kind =>
    intro depth inLambda rest
    exact classifyFrom_of_not_noticed (by rw [kind]; rfl)
  | group openKind _ closeKind ih =>
    intro depth inLambda rest
    rw [List.cons_append, List.append_assoc, List.singleton_append,
      classifyFrom_openParen openKind, ih, classifyFrom_closeParen closeKind, Nat.add_sub_cancel]
  | call _ openKind _ closeKind _ _ ih₁ ih₂ =>
    intro depth inLambda rest
    rw [List.append_assoc, ih₁, List.cons_append, List.append_assoc, List.singleton_append,
      classifyFrom_openParen openKind, ih₂, classifyFrom_closeParen closeKind, Nat.add_sub_cancel]
  | positional _ ih => exact fun depth => ih (depth + 1)
  | keyword kind equalsKind _ ih =>
    intro depth inLambda rest
    rw [List.cons_append, List.cons_append,
      classifyFrom_inside (Nat.succ_pos _) (by rw [kind]; rfl) (by rw [kind]; rfl),
      classifyFrom_inside (Nat.succ_pos _) (by rw [equalsKind]; rfl) (by rw [equalsKind]; rfl)]
    exact ih (depth + 1) inLambda rest
  | noArguments => exact fun _ _ _ => rfl
  | lastArgument _ ih => exact ih
  | moreArguments _ commaKind _ ih₁ ih₂ =>
    intro depth inLambda rest
    rw [List.append_assoc, ih₁, List.cons_append,
      classifyFrom_inside (Nat.succ_pos _) (by rw [commaKind]; rfl) (by rw [commaKind]; rfl), ih₂]

end Reading
end SlotTree
