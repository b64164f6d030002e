import Mathlib.Data.List.Basic
import Mathlib.Data.Nat.Digits

/-! The s-expression printer of search jobs (`internal/search/job`: `SexpFormat`, `Sexp`
and `PrettySexp`, src/unnamed/part_004:204-325). The printer walks the job tree with a
buffer and a `depth` counter that a composite job raises while its parts are written;
before every part it writes the separator and, unless the indent is empty, `depth`
copies of the indent. A job type the printer does not know is a panic.

The printed text is the layout of a `Term`, a keyword-headed s-expression, and a reader
of that text (the lexer `lex` and the parser `parseTerm`) gets the term back whenever
its atoms are atoms and the separator is white space: the printed form of a job names
its tree, for `Sexp` and for `PrettySexp` alike. -/

namespace Sourcegraph.Search

/-- A search job as the printers of `internal/search/job` see it. The nine leaf jobs
(`RepoSearch`, the text, structural, commit and symbol searches, `ComputeExcludedRepos`
and `noopJob`) are printed by their `Name()`, which is not under src/, so a leaf carries
that name. A timeout is a `time.Duration` in nanoseconds. `other` is any other
implementation of `Job`, with the type `%T` prints for it. -/
inductive Job where
  | leaf (name : String)
  | and (children : List Job)
  | or (children : List Job)
  | priority (required optional : Job)
  | parallel (children : List Job)
  | timeout (timeout : Int) (child : Job)
  | limit (limit : Int) (child : Job)
  | subRepoPermsFilter (child : Job)
  | other (type : String)
  deriving Repr

/-- The message both printers panic with on a job they do not know. -/
def unsupportedJob (type : String) : String :=
  "unsupported job " ++ type ++ " for SexpFormat printer"

/-- `writeSep`: the separator, then `depth` copies of the indent unless it is empty. -/
def writeSep (b sep indent : String) (depth : Nat) : String :=
  if indent = "" then b ++ sep
  else (List.range depth).foldl (fun b _ => b ++ indent) (b ++ sep)

section Printer

/- `time.Duration.String`, which prints the timeout of a `TimeoutJob`, is not under
src/; the printers take it as a parameter. -/
variable (durationString : Int → String)

mutual
/-- The closure `writeSexp` of `SexpFormat`, on the buffer and `depth`. A panic is an
error carrying its message. -/
def writeSexp (sep indent : String) : Job → String × Nat → Except String (String × Nat)
  | .leaf name, (b, depth) => .ok (b ++ name, depth)
  | .and children, (b, depth) => do
    let (b, depth) ← writeChildren sep indent children (b ++ "(AND", depth + 1)
    pure (b ++ ")", depth - 1)
  | .or children, (b, depth) => do
    let (b, depth) ← writeChildren sep indent children (b ++ "(OR", depth + 1)
    pure (b ++ ")", depth - 1)
  | .priority required optional, (b, depth) => do
    let b := b ++ "(PRIORITY"
    let depth := depth + 1
    let b := writeSep b sep indent depth
    let b := b ++ "(REQUIRED"
    let depth := depth + 1
    let b := writeSep b sep indent depth
    let (b, depth) ← writeSexp sep indent required (b, depth)
    let b := b ++ ")"
    let depth := depth - 1
    let b := writeSep b sep indent depth
    let b := b ++ "(OPTIONAL"
    let depth := depth + 1
    let b := writeSep b sep indent depth
    let (b, depth) ← writeSexp sep indent optional (b, depth)
    let b := b ++ ")"
    let depth := depth - 1
    pure (b ++ ")", depth - 1)
  | .parallel children, (b, depth) => do
    let (b, depth) ← writeChildren sep indent children (b ++ "(PARALLEL", depth + 1)
    let depth := depth - 1
    pure (b ++ ")", depth)
  | .timeout timeout child, (b, depth) => do
    let b := b ++ "(TIMEOUT"
    let depth := depth + 1
    let b := writeSep b sep indent depth ++ durationString timeout
    let b := writeSep b sep indent depth
    let (b, depth) ← writeSexp sep indent child (b, depth)
    pure (b ++ ")", depth - 1)
  | .limit limit child, (b, depth) => do
    let b := b ++ "(LIMIT"
    let depth := depth + 1
    let b := writeSep b sep indent depth ++ toString limit
    let b := writeSep b sep indent depth
    let (b, depth) ← writeSexp sep indent child (b, depth)
    pure (b ++ ")", depth - 1)
  | .subRepoPermsFilter child, (b, depth) => do
    let b := b ++ "(FILTER"
    let depth := depth + 1
    let b := writeSep b sep indent depth ++ "SubRepoPermissions"
    let b := writeSep b sep indent depth
    let (b, depth) ← writeSexp sep indent child (b, depth)
    pure (b ++ ")", depth - 1)
  | .other type, _ => .error (unsupportedJob type)

/-- The loop `for _, child := range j.children` of `writeSexp`. -/
def writeChildren (sep indent : String) : List Job → String × Nat → Except String (String × Nat)
  | [], s => .ok s
  | child :: rest, (b, depth) => do
    let s ← writeSexp sep indent child (writeSep b sep indent depth, depth)
    writeChildren sep indent rest s
end

/-- `SexpFormat`. -/
def sexpFormat (job : Job) (sep indent : String) : Except String String :=
  (writeSexp durationString sep indent job ("", 0)).map (·.1)

/-- `Sexp`: the s-expression on one line. -/
def sexp (job : Job) : Except String String := sexpFormat durationString job " " ""

/-- `PrettySexp`: one part a line, indented by two spaces a level. -/
def prettySexp (job : Job) : Except String String := sexpFormat durationString job "\n" "  "

example : sexp toString (.and [.leaf "RepoSearch", .limit 5 (.leaf "CommitSearch")]) =
    .ok "(AND RepoSearch (LIMIT 5 CommitSearch))" := rfl

end Printer

/-! ## What the printer prints -/

/-- An s-expression: an atom, or a parenthesised keyword followed by its arguments. -/
inductive Term where
  | atom (s : String)
  | node (keyword : String) (args : List Term)
  deriving Repr

/-- The indent `writeSep` writes at `depth`. -/
def indentBy (indent : String) : Nat → String
  | 0 => ""
  | depth + 1 => indentBy indent depth ++ indent

mutual
/-- A term laid out at `depth`: every argument after the separator and the indent of the
level below. -/
def Term.layout (sep indent : String) : Nat → Term → String
  | _, .atom s => s
  | depth, .node keyword args => "(" ++ keyword ++ Term.layoutArgs sep indent (depth + 1) args ++ ")"

/-- The arguments of a node laid out at `depth`. -/
def Term.layoutArgs (sep indent : String) : Nat → List Term → String
  | _, [] => ""
  | depth, x :: xs =>
    sep ++ indentBy indent depth ++ x.layout sep indent depth ++ Term.layoutArgs sep indent depth xs
end

section Printer

variable (durationString : Int → String)

mutual
/-- The term a job is printed as. -/
def Job.term : Job → Term
  | .leaf name => .atom name
  | .and children => .node "AND" (Job.terms children)
  | .or children => .node "OR" (Job.terms children)
  | .priority required optional =>
    .node "PRIORITY" [.node "REQUIRED" [required.term], .node "OPTIONAL" [optional.term]]
  | .parallel children => .node "PARALLEL" (Job.terms children)
  | .timeout t child => .node "TIMEOUT" [.atom (durationString t), child.term]
  | .limit n child => .node "LIMIT" [.atom (toString n), child.term]
  | .subRepoPermsFilter child => .node "FILTER" [.atom "SubRepoPermissions", child.term]
  | .other type => .atom type

/-- The terms of a list of jobs. -/
def Job.terms : List Job → List Term
  | [] => []
  | j :: js => j.term :: Job.terms js
end

end Printer

mutual
/-- The type of the first job, in printing order, that the printers do not know. -/
def Job.unsupported : Job → Option String
  | .leaf _ => none
  | .and children | .or children | .parallel children => Job.unsupportedIn children
  | .priority required optional => required.unsupported <|> optional.unsupported
  | .timeout _ child | .limit _ child | .subRepoPermsFilter child => child.unsupported
  | .other type => some type

/-- The first job of a list, in printing order, that the printers do not know. -/
def Job.unsupportedIn : List Job → Option String
  | [] => none
  | j :: js => j.unsupported <|> Job.unsupportedIn js
end

/-! ## The printer prints the layout of the job's term -/

@[simp] theorem indentBy_empty (depth : Nat) : indentBy "" depth = "" := by
  induction depth with
  | zero => rfl
  | succ depth ih => simp [indentBy, ih]

/-- The loop of `writeSep` appends the indent `depth` times. -/
private theorem foldl_indent (indent s : String) (depth : Nat) :
    (List.range depth).foldl (fun b _ => b ++ indent) s = s ++ indentBy indent depth := by
  induction depth with
  | zero => simp [indentBy]
  | succ depth ih => rw [List.range_succ, List.foldl_append, ih]; simp [indentBy, String.append_assoc]

/-- `writeSep` appends the separator and the indent of `depth`. -/
theorem writeSep_eq (b sep indent : String) (depth : Nat) :
    writeSep b sep indent depth = b ++ sep ++ indentBy indent depth := by
  unfold writeSep
  split_ifs with h
  · simp [h, indentBy_empty]
  · exact foldl_indent indent _ depth

section Writer

variable (durationString : Int → String) (sep indent : String)

mutual
/-- Writing a job appends the layout of its term at the current `depth` and leaves
`depth` as it was, or panics on its first job the printer does not know. -/
theorem writeSexp_eq : ∀ (j : Job) (b : String) (depth : Nat),
    writeSexp durationString sep indent j (b, depth) =
      match j.unsupported with
      | some type => .error (unsupportedJob type)
      | none => .ok (b ++ (j.term durationString).layout sep indent depth, depth)
  | .leaf name, b, depth => by simp [writeSexp, Job.unsupported, Job.term, Term.layout]
  | .and children, b, depth => by
    simp only [writeSexp, writeChildren_eq children, Job.unsupported, Job.term]
    cases Job.unsupportedIn children <;> simp [Term.layout, bind, Except.bind, pure, Except.pure, String.append_assoc]
  | .or children, b, depth => by
    simp only [writeSexp, writeChildren_eq children, Job.unsupported, Job.term]
    cases Job.unsupportedIn children <;> simp [Term.layout, bind, Except.bind, pure, Except.pure, String.append_assoc]
  | .parallel children, b, depth => by
    simp only [writeSexp, writeChildren_eq children, Job.unsupported, Job.term]
    cases Job.unsupportedIn children <;> simp [Term.layout, bind, Except.bind, pure, Except.pure, String.append_assoc]
  | .priority required optional, b, depth => by
    simp only [writeSexp, writeSexp_eq required, writeSexp_eq optional, Job.unsupported, Job.term, writeSep_eq]
    cases required.unsupported <;> cases optional.unsupported <;>
      simp [Term.layout, Term.layoutArgs, bind, Except.bind, pure, Except.pure, String.append_assoc]
  | .timeout t child, b, depth => by
    simp only [writeSexp, writeSexp_eq child, Job.unsupported, Job.term, writeSep_eq]
    cases child.unsupported <;> simp [Term.layout, Term.layoutArgs, bind, Except.bind, pure, Except.pure, String.append_assoc]
  | .limit n child, b, depth => by
    simp only [writeSexp, writeSexp_eq child, Job.unsupported, Job.term, writeSep_eq]
    cases child.unsupported <;> simp [Term.layout, Term.layoutArgs, bind, Except.bind, pure, Except.pure, String.append_assoc]
  | .subRepoPermsFilter child, b, depth => by
    simp only [writeSexp, writeSexp_eq child, Job.unsupported, Job.term, writeSep_eq]
    cases child.unsupported <;> simp [Term.layout, Term.layoutArgs, bind, Except.bind, pure, Except.pure, String.append_assoc]
  | .other type, b, depth => rfl

/-- The loop over the children appends their layouts as arguments at `depth`. -/
theorem writeChildren_eq : ∀ (js : List Job) (b : String) (depth : Nat),
    writeChildren durationString sep indent js (b, depth) =
      match Job.unsupportedIn js with
      | some type => .error (unsupportedJob type)
      | none => .ok (b ++ Term.layoutArgs sep indent depth (Job.terms durationString js), depth)
  | [], b, depth => by simp [writeChildren, Job.unsupportedIn, Job.terms, Term.layoutArgs]
  | j :: js, b, depth => by
    simp only [writeChildren, writeSexp_eq j, Job.unsupportedIn, Job.terms, Term.layoutArgs, writeSep_eq]
    cases j.unsupported with
    | some type => rfl
    | none =>
      simp only [bind, Except.bind, writeChildren_eq js]
      cases Job.unsupportedIn js <;> simp [String.append_assoc]
end

end Writer

/-! ## Reading the printed text back -/

/-- A token of the printed text. -/
inductive Token where
  | lparen
  | rparen
  | atom (s : String)
  deriving DecidableEq, Repr

/-- The characters that end an atom. -/
def isDelimiter (c : Char) : Bool := c == '(' || c == ')' || c.isWhitespace

/-- The atom read so far, when there is one. -/
def flush (acc : List Char) : List Token := if acc.isEmpty then [] else [.atom ⟨acc⟩]

/-- The lexer, with the characters of the atom it is in. -/
def lexFrom : List Char → List Char → List Token
  | [], acc => flush acc
  | c :: cs, acc =>
    if c = '(' then flush acc ++ .lparen :: lexFrom cs []
    else if c = ')' then flush acc ++ .rparen :: lexFrom cs []
    else if c.isWhitespace then flush acc ++ lexFrom cs []
    else lexFrom cs (acc ++ [c])

/-- The tokens of a text. -/
def lex (s : String) : List Token := lexFrom s.data []

mutual
/-- A term from the tokens, with the tokens after it; `n` bounds the recursion. -/
def parseTerm : Nat → List Token → Option (Term × List Token)
  | 0, _ => none
  | _ + 1, .atom s :: rest => some (.atom s, rest)
  | n + 1, .lparen :: .atom keyword :: rest =>
    (parseArgs n rest).map fun (args, rest) => (.node keyword args, rest)
  | _ + 1, _ => none

/-- The arguments of a node up to its closing parenthesis, and the tokens after it. -/
def parseArgs : Nat → List Token → Option (List Term × List Token)
  | 0, _ => none
  | _ + 1, [] => none
  | n + 1, t :: toks =>
    if t = .rparen then some ([], toks)
    else do
      let (x, rest) ← parseTerm n (t :: toks)
      let (xs, rest) ← parseArgs n rest
      pure (x :: xs, rest)
end

/-- The term a text reads as, when all of it is one term. -/
def read (s : String) : Option Term :=
  let toks := lex s
  match parseTerm toks.length toks with
  | some (x, []) => some x
  | _ => none

/-- A text that reads as one atom: not empty, and with no delimiter in it. -/
def isAtom (s : String) : Bool := !s.data.isEmpty && s.data.all fun c => !isDelimiter c

mutual
/-- Every atom and keyword of the term reads as an atom. -/
def Term.clean : Term → Bool
  | .atom s => isAtom s
  | .node keyword args => isAtom keyword && Term.cleanArgs args

/-- Every argument is clean. -/
def Term.cleanArgs : List Term → Bool
  | [] => true
  | x :: xs => x.clean && Term.cleanArgs xs
end

mutual
/-- The tokens of a term. -/
def Term.tokens : Term → List Token
  | .atom s => [.atom s]
  | .node keyword args => .lparen :: .atom keyword :: Term.argsTokens args ++ [.rparen]

/-- The tokens of a list of arguments. -/
def Term.argsTokens : List Term → List Token
  | [] => []
  | x :: xs => x.tokens ++ Term.argsTokens xs
end

/-! ### The parser reads the tokens of a term -/

theorem tokens_eq_cons (x : Term) : ∃ t toks, x.tokens = t :: toks ∧ t ≠ .rparen := by
  cases x <;> simp [Term.tokens]

mutual
theorem parseTerm_tokens : ∀ (x : Term) (n : Nat) (rest : List Token), x.tokens.length ≤ n →
    parseTerm n (x.tokens ++ rest) = some (x, rest)
  | .atom s, n + 1, rest, _ => rfl
  | .node keyword args, n + 1, rest, h => by
    have h' : (Term.argsTokens args).length < n := by simp [Term.tokens] at h; omega
    simp [Term.tokens, parseTerm, parseArgs_tokens args n rest h']

theorem parseArgs_tokens : ∀ (xs : List Term) (n : Nat) (rest : List Token),
    (Term.argsTokens xs).length < n → parseArgs n (Term.argsTokens xs ++ .rparen :: rest) = some (xs, rest)
  | [], n + 1, rest, _ => by simp [Term.argsTokens, parseArgs]
  | x :: xs, n + 1, rest, h => by
    obtain ⟨t, toks, hx, ht⟩ := tokens_eq_cons x
    have hlen : 0 < x.tokens.length := by simp [hx]
    simp only [Term.argsTokens, List.length_append] at h
    have h₁ := parseTerm_tokens x n (Term.argsTokens xs ++ .rparen :: rest) (by omega)
    have h₂ := parseArgs_tokens xs n rest (by omega)
    simp only [Term.argsTokens, List.append_assoc, hx, List.cons_append, parseArgs, ht, ite_false] at h₁ ⊢
    simp [h₁, h₂, bind, Option.bind]
end

/-! ### The lexer reads the layout of a clean term -/

theorem isAtom_iff (s : String) : isAtom s ↔ s.data ≠ [] ∧ ∀ c ∈ s.data, isDelimiter c = false := by
  simp [isAtom]

/-- Where an atom may end: at the end of the text, or before a delimiter. -/
def atBoundary : List Char → Bool
  | [] => true
  | c :: _ => isDelimiter c

theorem lexFrom_chars {l : List Char} (hl : ∀ c ∈ l, isDelimiter c = false) (rest acc : List Char) :
    lexFrom (l ++ rest) acc = lexFrom rest (acc ++ l) := by
  induction l generalizing acc with
  | nil => simp
  | cons c l ih =>
    have hc := hl c (List.mem_cons_self c l)
    simp only [isDelimiter, Bool.or_eq_false_iff, beq_eq_false_iff_ne] at hc
    simp [lexFrom, hc.1.1, hc.1.2, hc.2, ih (fun c h => hl c (List.mem_cons_of_mem _ h))]

theorem lexFrom_spaces {l : List Char} (hl : ∀ c ∈ l, c.isWhitespace) (rest : List Char) :
    lexFrom (l ++ rest) [] = lexFrom rest [] := by
  induction l with
  | nil => rfl
  | cons c l ih =>
    have hc := hl c (List.mem_cons_self c l)
    have h₁ : c ≠ '(' := by rintro rfl; exact absurd hc (by decide)
    have h₂ : c ≠ ')' := by rintro rfl; exact absurd hc (by decide)
    simp [lexFrom, h₁, h₂, hc, flush, ih (fun c h => hl c (List.mem_cons_of_mem _ h))]

theorem lexFrom_boundary {rest : List Char} (h : atBoundary rest) (acc : List Char) :
    lexFrom rest acc = flush acc ++ lexFrom rest [] := by
  cases rest with
  | nil => simp [lexFrom, flush]
  | cons c cs =>
    simp only [atBoundary, isDelimiter, Bool.or_eq_true, beq_iff_eq] at h
    by_cases h₁ : c = '(' <;> by_cases h₂ : c = ')' <;> simp_all [lexFrom, flush]

section Layout

variable {sep indent : String}

theorem indentBy_spaces (hindent : ∀ c ∈ indent.data, c.isWhitespace) (depth : Nat) :
    ∀ c ∈ (indentBy indent depth).data, c.isWhitespace := by
  induction depth with
  | zero => simp [indentBy]
  | succ depth ih => simpa [indentBy, or_imp, forall_and] using ⟨ih, hindent⟩

theorem atBoundary_layoutArgs (hsep : sep.data ≠ [] ∧ ∀ c ∈ sep.data, c.isWhitespace) (depth : Nat)
    (xs : List Term) {rest : List Char} (h : atBoundary rest) :
    atBoundary ((Term.layoutArgs sep indent depth xs).data ++ rest) := by
  cases xs with
  | nil => simpa [Term.layoutArgs]
  | cons x xs =>
    obtain ⟨c, cs, hc⟩ := List.exists_cons_of_ne_nil hsep.1
    have hw := hsep.2 c (by simp [hc])
    simp [Term.layoutArgs, hc, atBoundary, isDelimiter, hw]

mutual
/-- The lexer reads the layout of a clean term, followed by a delimiter, as its tokens. -/
theorem lexFrom_layout (hsep : sep.data ≠ [] ∧ ∀ c ∈ sep.data, c.isWhitespace)
    (hindent : ∀ c ∈ indent.data, c.isWhitespace) :
    ∀ (x : Term) (depth : Nat) (rest : List Char), x.clean → atBoundary rest →
      lexFrom ((x.layout sep indent depth).data ++ rest) [] = x.tokens ++ lexFrom rest []
  | .atom s, depth, rest, hx, hr => by
    rw [Term.clean, isAtom_iff] at hx
    rw [Term.layout, lexFrom_chars hx.2, List.nil_append, lexFrom_boundary hr]
    simp [flush, Term.tokens, hx.1]
  | .node keyword args, depth, rest, hx, hr => by
    simp only [Term.clean, Bool.and_eq_true, isAtom_iff] at hx
    have hb : atBoundary ((Term.layoutArgs sep indent (depth + 1) args).data ++ ')' :: rest) :=
      atBoundary_layoutArgs hsep _ args rfl
    rw [Term.layout]
    simp only [String.data_append, List.append_assoc]
    show lexFrom ('(' :: (keyword.data ++ ((Term.layoutArgs sep indent (depth + 1) args).data ++ ')' :: rest))) [] = _
    rw [lexFrom, if_pos rfl, lexFrom_chars hx.1.2, List.nil_append, lexFrom_boundary hb,
      lexFrom_layoutArgs hsep hindent args (depth + 1) (')' :: rest) hx.2 rfl]
    simp [flush, hx.1.1, lexFrom, Term.tokens]

/-- The lexer reads the laid out arguments of a node as their tokens. -/
theorem lexFrom_layoutArgs (hsep : sep.data ≠ [] ∧ ∀ c ∈ sep.data, c.isWhitespace)
    (hindent : ∀ c ∈ indent.data, c.isWhitespace) :
    ∀ (xs : List Term) (depth : Nat) (rest : List Char), Term.cleanArgs xs → atBoundary rest →
      lexFrom ((Term.layoutArgs sep indent depth xs).data ++ rest) [] = Term.argsTokens xs ++ lexFrom rest []
  | [], depth, rest, _, _ => by simp [Term.layoutArgs, Term.argsTokens]
  | x :: xs, depth, rest, hx, hr => by
    simp only [Term.cleanArgs, Bool.and_eq_true] at hx
    simp only [Term.layoutArgs, String.data_append, List.append_assoc, Term.argsTokens]
    rw [lexFrom_spaces hsep.2, lexFrom_spaces (indentBy_spaces hindent depth),
      lexFrom_layout hsep hindent x depth _ hx.1 (atBoundary_layoutArgs hsep depth xs hr),
      lexFrom_layoutArgs hsep hindent xs depth rest hx.2 hr]
end

/-- A clean term laid out with a white space separator and indent reads back as itself. -/
theorem read_layout (hsep : sep.data ≠ [] ∧ ∀ c ∈ sep.data, c.isWhitespace)
    (hindent : ∀ c ∈ indent.data, c.isWhitespace) {x : Term} (hx : x.clean) (depth : Nat) :
    read (x.layout sep indent depth) = some x := by
  have hlex : lex (x.layout sep indent depth) = x.tokens := by
    simpa [lex, lexFrom, flush] using lexFrom_layout hsep hindent x depth [] hx rfl
  have hparse := parseTerm_tokens x x.tokens.length [] le_rfl
  rw [List.append_nil] at hparse
  simp [read, hlex, hparse]

end Layout

/-! ## Numbers print apart -/

/-- The value of a text of decimal digits. -/
def decimalValue (cs : List Char) : Nat := cs.foldl (fun n c => 10 * n + (c.toNat - '0'.toNat)) 0

theorem decimalValue_append_singleton (cs : List Char) (c : Char) :
    decimalValue (cs ++ [c]) = 10 * decimalValue cs + (c.toNat - '0'.toNat) := by
  simp [decimalValue, List.foldl_append]

theorem digitChar_facts : ∀ d, d < 10 → (Nat.digitChar d).toNat - '0'.toNat = d ∧
    isDelimiter (Nat.digitChar d) = false ∧ Nat.digitChar d ≠ '-' := by
  decide

theorem toDigitsCore_append (f n : Nat) (ds : List Char) :
    Nat.toDigitsCore 10 f n ds = Nat.toDigitsCore 10 f n [] ++ ds := by
  induction f generalizing n ds with
  | zero => simp [Nat.toDigitsCore]
  | succ f ih =>
    simp only [Nat.toDigitsCore]
    split_ifs
    · simp
    · rw [ih _ (_ :: ds), ih _ [_]]; simp

theorem mem_toDigitsCore {f n : Nat} {c : Char} (h : c ∈ Nat.toDigitsCore 10 f n []) :
    ∃ d < 10, c = Nat.digitChar d := by
  induction f generalizing n with
  | zero => simp [Nat.toDigitsCore] at h
  | succ f ih =>
    simp only [Nat.toDigitsCore] at h
    split_ifs at h
    · exact ⟨n % 10, Nat.mod_lt n (by decide), by simpa using h⟩
    · rw [toDigitsCore_append, List.mem_append, List.mem_singleton] at h
      exact h.elim ih fun h => ⟨n % 10, Nat.mod_lt n (by decide), h⟩

theorem decimalValue_toDigitsCore {f n : Nat} (hn : n < f) : decimalValue (Nat.toDigitsCore 10 f n []) = n := by
  induction f generalizing n with
  | zero => omega
  | succ f ih =>
    have hd := (digitChar_facts (n % 10) (Nat.mod_lt n (by decide))).1
    simp only [Nat.toDigitsCore]
    split_ifs with h0
    · rw [show [Nat.digitChar (n % 10)] = [] ++ [Nat.digitChar (n % 10)] from rfl,
        decimalValue_append_singleton, hd]
      simp [decimalValue]; omega
    · rw [toDigitsCore_append, decimalValue_append_singleton, hd, ih (by omega)]
      omega

/-- `strconv.Itoa` and `toString` of an `Int` tell all numbers apart. -/
theorem toString_int_injective : Function.Injective (toString : Int → String) := by
  have hval : ∀ m : Nat, decimalValue (Nat.repr m).data = m := fun m => decimalValue_toDigitsCore (Nat.lt_succ_self m)
  have hdash : ∀ m : Nat, '-' ∉ (Nat.repr m).data := fun m h => by
    obtain ⟨d, hd, e⟩ := mem_toDigitsCore h
    exact (digitChar_facts d hd).2.2 e.symm
  intro a b h
  cases a with
  | ofNat m => cases b with
    | ofNat m' =>
      change Nat.repr m = Nat.repr m' at h
      exact congrArg _ ((hval m).symm.trans (h ▸ hval m'))
    | negSucc m' =>
      change Nat.repr m = "-" ++ Nat.repr (m' + 1) at h
      exact absurd (h ▸ (by simp : '-' ∈ ("-" ++ Nat.repr (m' + 1)).data)) (hdash m)
  | negSucc m => cases b with
    | ofNat m' =>
      change "-" ++ Nat.repr (m + 1) = Nat.repr m' at h
      exact absurd (h ▸ (by simp : '-' ∈ ("-" ++ Nat.repr (m + 1)).data)) (hdash m')
    | negSucc m' =>
      change "-" ++ Nat.repr (m + 1) = "-" ++ Nat.repr (m' + 1) at h
      have e := congrArg (fun s => decimalValue s.data.tail) h
      simp only [String.data_append] at e
      change decimalValue (Nat.repr (m + 1)).data = decimalValue (Nat.repr (m' + 1)).data at e
      rw [hval, hval] at e
      rw [Nat.succ_inj'.mp e]

section Injective

variable {durationString : Int → String}

mutual
/-- Jobs the printers know are told apart by their terms when durations are. -/
theorem Job.term_inj (hd : Function.Injective durationString) : ∀ {j₁ j₂ : Job},
    j₁.unsupported = none → j₂.unsupported = none → j₁.term durationString = j₂.term durationString → j₁ = j₂
  | .leaf a, j₂, _, h₂, e => by cases j₂ <;> simp_all [Job.term, Job.unsupported]
  | .and cs, j₂, h₁, h₂, e => by
    cases j₂ <;> simp [Job.term, Job.unsupported] at e h₂ ⊢
    exact Job.terms_inj hd h₁ h₂ e
  | .or cs, j₂, h₁, h₂, e => by
    cases j₂ <;> simp [Job.term, Job.unsupported] at e h₂ ⊢
    exact Job.terms_inj hd h₁ h₂ e
  | .parallel cs, j₂, h₁, h₂, e => by
    cases j₂ <;> simp [Job.term, Job.unsupported] at e h₂ ⊢
    exact Job.terms_inj hd h₁ h₂ e
  | .priority r o, j₂, h₁, h₂, e => by
    cases j₂ <;> simp [Job.term, Job.unsupported] at e h₂ ⊢
    rw [Job.unsupported, Option.orElse_eq_none] at h₁
    exact ⟨Job.term_inj hd h₁.1 h₂.1 e.1, Job.term_inj hd h₁.2 h₂.2 e.2⟩
  | .timeout t c, j₂, h₁, h₂, e => by
    cases j₂ <;> simp [Job.term, Job.unsupported] at e h₂ ⊢
    exact ⟨hd e.1, Job.term_inj hd h₁ h₂ e.2⟩
  | .limit n c, j₂, h₁, h₂, e => by
    cases j₂ <;> simp [Job.term, Job.unsupported] at e h₂ ⊢
    exact ⟨toString_int_injective e.1, Job.term_inj hd h₁ h₂ e.2⟩
  | .subRepoPermsFilter c, j₂, h₁, h₂, e => by
    cases j₂ <;> simp [Job.term, Job.unsupported] at e h₂ ⊢
    exact Job.term_inj hd h₁ h₂ e
  | .other _, _, h₁, _, _ => by simp [Job.unsupported] at h₁

/-- Lists of jobs the printers know are told apart by their terms. -/
theorem Job.terms_inj (hd : Function.Injective durationString) : ∀ {js₁ js₂ : List Job},
    Job.unsupportedIn js₁ = none → Job.unsupportedIn js₂ = none →
      Job.terms durationString js₁ = Job.terms durationString js₂ → js₁ = js₂
  | [], [], _, _, _ => rfl
  | [], _ :: _, _, _, e => by simp [Job.terms] at e
  | _ :: _, [], _, _, e => by simp [Job.terms] at e
  | j₁ :: js₁, j₂ :: js₂, h₁, h₂, e => by
    simp only [Job.unsupportedIn, Option.orElse_eq_none] at h₁ h₂
    simp only [Job.terms, List.cons.injEq] at e
    rw [Job.term_inj hd h₁.1 h₂.1 e.1, Job.terms_inj hd h₁.2 h₂.2 e.2]
end

end Injective

/-! ## The printed form of a job names its tree -/

section Reading

variable (durationString : Int → String)

/-- `SexpFormat` prints the layout of the job's term at depth zero, or panics on the first
job it does not know. -/
theorem sexpFormat_eq (j : Job) (sep indent : String) :
    sexpFormat durationString j sep indent = match j.unsupported with
      | some type => .error (unsupportedJob type)
      | none => .ok ((j.term durationString).layout sep indent 0) := by
  unfold sexpFormat
  rw [writeSexp_eq]
  cases j.unsupported <;> simp [Except.map]

/-- **Round trip.** For every job the printer knows whose names and durations are atoms,
and every separator of white space and indent of white space, `SexpFormat` returns, and
its text reads back as the job's term. -/
theorem read_sexpFormat (j : Job) (hj : j.unsupported = none) (hclean : (j.term durationString).clean)
    {sep indent : String} (hsep : sep.data ≠ [] ∧ ∀ c ∈ sep.data, c.isWhitespace)
    (hindent : ∀ c ∈ indent.data, c.isWhitespace) :
    ∃ s, sexpFormat durationString j sep indent = .ok s ∧ read s = some (j.term durationString) :=
  ⟨_, by rw [sexpFormat_eq, hj], read_layout hsep hindent hclean 0⟩

/-- A priority job, printed by `PrettySexp`'s layout, reads back as its tree. -/
theorem read_sexpFormat_priority :
    Job.unsupported (.priority (.and [.leaf "RepoSearch", .leaf "CommitSearch"]) (.timeout 10 (.leaf "Noop"))) = none ∧
    (Job.term toString (.priority (.and [.leaf "RepoSearch", .leaf "CommitSearch"]) (.timeout 10 (.leaf "Noop")))).clean ∧
    ("\n".data ≠ [] ∧ ∀ c ∈ "\n".data, c.isWhitespace) ∧ (∀ c ∈ "  ".data, c.isWhitespace) ∧
    ∃ s, sexpFormat toString (.priority (.and [.leaf "RepoSearch", .leaf "CommitSearch"]) (.timeout 10 (.leaf "Noop")))
        "\n" "  " = .ok s ∧
      read s = some (Job.term toString (.priority (.and [.leaf "RepoSearch", .leaf "CommitSearch"]) (.timeout 10 (.leaf "Noop")))) :=
  ⟨by decide, by decide, by decide, by decide,
    read_sexpFormat toString _ (by decide) (by decide) (by decide) (by decide)⟩

/-- **Injectivity, up to leaf contents.** When durations print apart, two different jobs the
printer knows, whose names and durations are atoms, print to different texts with a
separator and an indent of white space. A leaf is its `Name()`, so two leaf jobs of one
name that differ in what they search print alike: comparing `Sexp` or `PrettySexp` outputs
compares job trees down to the leaves' names. -/
theorem sexpFormat_injective (hd : Function.Injective durationString) {sep indent : String}
    (hsep : sep.data ≠ [] ∧ ∀ c ∈ sep.data, c.isWhitespace) (hindent : ∀ c ∈ indent.data, c.isWhitespace)
    {j₁ j₂ : Job} (u₁ : j₁.unsupported = none) (u₂ : j₂.unsupported = none)
    (c₁ : (j₁.term durationString).clean) (c₂ : (j₂.term durationString).clean) (hne : j₁ ≠ j₂) :
    sexpFormat durationString j₁ sep indent ≠ sexpFormat durationString j₂ sep indent := by
  intro e
  rw [sexpFormat_eq, sexpFormat_eq, u₁, u₂, Except.ok.injEq] at e
  have hterm : some (j₁.term durationString) = some (j₂.term durationString) := by
    rw [← read_layout hsep hindent c₁ 0, e, read_layout hsep hindent c₂ 0]
  exact hne (Job.term_inj hd u₁ u₂ (Option.some.inj hterm))

/-- `Sexp` prints two limit jobs that differ only in their limit apart. -/
theorem sexpFormat_injective_limit :
    Function.Injective (toString : Int → String) ∧ (" ".data ≠ [] ∧ ∀ c ∈ " ".data, c.isWhitespace) ∧
    (∀ c ∈ "".data, c.isWhitespace) ∧
    Job.unsupported (.limit 5 (.leaf "RepoSearch")) = none ∧ Job.unsupported (.limit 50 (.leaf "RepoSearch")) = none ∧
    (Job.term toString (.limit 5 (.leaf "RepoSearch"))).clean ∧
    (Job.term toString (.limit 50 (.leaf "RepoSearch"))).clean ∧
    Job.limit 5 (.leaf "RepoSearch") ≠ .limit 50 (.leaf "RepoSearch") ∧
    sexpFormat toString (.limit 5 (.leaf "RepoSearch")) " " "" ≠
      sexpFormat toString (.limit 50 (.leaf "RepoSearch")) " " "" :=
  have hne : Job.limit 5 (.leaf "RepoSearch") ≠ .limit 50 (.leaf "RepoSearch") := by simp
  ⟨toString_int_injective, by decide, by decide, rfl, rfl, by decide, by decide, hne,
    @sexpFormat_injective toString toString_int_injective " " "" (by decide) (by decide) _ _ rfl rfl
      (by decide) (by decide) hne⟩

end Reading

end Sourcegraph.Search
