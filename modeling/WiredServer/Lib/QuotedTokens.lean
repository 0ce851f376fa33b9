import Mathlib

/-! The tokens of a statement whose literals stand between quotes that are doubled inside them, and
statements with arguments in their literals. Writing an argument with its quotes doubled gives the
tokens that the statement has with the argument itself in the literal.
-/

namespace QuotedTokens

-----------------------------------------------------------------------------------------
-- Statements
-----------------------------------------------------------------------------------------

/-- A part of a statement: a byte of its text, or an argument that is written in its place. -/
inductive Symbol where
  | byte (byte : UInt8)
  | argument (text : List UInt8)
deriving DecidableEq

/-- The symbols of a text without arguments. -/
def symbols (text : List UInt8) : List Symbol :=
  text.map .byte

/-- What a token is made of: a part outside of quotes, or the contents between two quotes. A statement
may end inside of quotes.
-/
inductive Token where
  | plain (symbol : Symbol)
  | quoted (delimiter : UInt8) (content : List Symbol)
  | unfinished (content : List Symbol)
deriving DecidableEq

/-- The quotes around texts. -/
def quote : UInt8 := 39

/-- The bytes that begin a quoted token and end it if they are not doubled: quotes, double quotes and
backquotes.
-/
def isDelimiter (byte : UInt8) : Bool :=
  byte = quote || byte = 34 || byte = 96

/-- Where in a statement the next part stands. -/
inductive Mode where
  | outside
  /-- Behind a hyphen, which begins a comment if another one follows. -/
  | hyphen
  /-- Behind a slash, which begins a comment if an asterisk follows. -/
  | slash
  | lineComment
  /-- In a comment, which ends at a slash if an asterisk stands in front of it. -/
  | comment (asterisk : Bool)
  | inside (delimiter : UInt8) (content : List Symbol)
  /-- Behind a delimiter in a quoted token, which ends it if it is not doubled. -/
  | closing (delimiter : UInt8) (content : List Symbol)
  | bracket (content : List Symbol)
deriving DecidableEq

namespace Mode

/-- A part outside of quotes and comments. -/
def stepOutside (mode : Mode) : Symbol → List Token × Mode
  | .argument text => ([.plain (.argument text)], .outside)
  | .byte byte =>
      if isDelimiter byte then ([], .inside byte [])
      else if byte = 91 then ([], .bracket [])
      else
        ([.plain (.byte byte)],
          if byte = 45 then if mode = .hyphen then .lineComment else .hyphen
          else if byte = 47 then .slash
          else if byte = 42 ∧ mode = .slash then .comment false
          else .outside)

/-- The tokens that end before the next part, and where the one behind it stands. -/
def step : Mode → Symbol → List Token × Mode
  | .outside, symbol => stepOutside .outside symbol
  | .hyphen, symbol => stepOutside .hyphen symbol
  | .slash, symbol => stepOutside .slash symbol
  | .lineComment, symbol =>
      ([.plain symbol], if symbol = .byte 10 then .outside else .lineComment)
  | .comment asterisk, symbol =>
      ([.plain symbol],
        if symbol = .byte 47 ∧ asterisk then .outside else .comment (symbol = .byte 42))
  | .inside delimiter content, symbol =>
      if symbol = .byte delimiter then ([], .closing delimiter content)
      else ([], .inside delimiter (content ++ [symbol]))
  | .closing delimiter content, symbol =>
      if symbol = .byte delimiter then ([], .inside delimiter (content ++ [symbol]))
      else
        (.quoted delimiter content :: (stepOutside .outside symbol).1,
          (stepOutside .outside symbol).2)
  | .bracket content, symbol =>
      if symbol = .byte 93 then ([.quoted 91 content], .outside)
      else ([], .bracket (content ++ [symbol]))

/-- The tokens that end with the statement. -/
def finish : Mode → List Token
  | .inside _ content => [.unfinished content]
  | .closing delimiter content => [.quoted delimiter content]
  | .bracket content => [.unfinished content]
  | _ => []

/-- The tokens of the rest of a statement. -/
def tokens : Mode → List Symbol → List Token
  | mode, [] => mode.finish
  | mode, symbol :: rest => (mode.step symbol).1 ++ (mode.step symbol).2.tokens rest

/-- The arguments in the rest of a statement stand inside of quotes. -/
def ArgumentsQuoted : Mode → List Symbol → Prop
  | _, [] => True
  | mode, .byte byte :: rest => (mode.step (.byte byte)).2.ArgumentsQuoted rest
  | mode, .argument text :: rest =>
      (∃ content, mode = .inside quote content)
        ∧ (mode.step (.argument text)).2.ArgumentsQuoted rest

end Mode

/-- The tokens of a statement. -/
def tokens (statement : List Symbol) : List Token :=
  Mode.outside.tokens statement

-----------------------------------------------------------------------------------------
-- Arguments
-----------------------------------------------------------------------------------------

/-- A text with its quotes doubled. -/
def doubled (text : List UInt8) : List UInt8 :=
  text.flatMap fun byte => if byte = quote then [quote, quote] else [byte]

/-- What is written for a part of a statement. -/
def Symbol.written : Symbol → List UInt8
  | .byte value => [value]
  | .argument text => doubled text

/-- What a part of a statement denotes in a literal. -/
def Symbol.denoted : Symbol → List Symbol
  | .byte value => [.byte value]
  | .argument text => symbols text

/-- A token with the arguments in their places. -/
def Token.denoted : Token → Token
  | .plain symbol => .plain symbol
  | .quoted delimiter content => .quoted delimiter (content.flatMap Symbol.denoted)
  | .unfinished content => .unfinished (content.flatMap Symbol.denoted)

/-- A mode with the arguments in their places. -/
def Mode.denoted : Mode → Mode
  | .inside delimiter content => .inside delimiter (content.flatMap Symbol.denoted)
  | .closing delimiter content => .closing delimiter (content.flatMap Symbol.denoted)
  | .bracket content => .bracket (content.flatMap Symbol.denoted)
  | mode => mode

/-- The quotes of texts in a row are doubled in each of them. -/
@[simp] theorem doubled_append (left right : List UInt8)
    : doubled (left ++ right) = doubled left ++ doubled right :=
  List.flatMap_append

/-- A text without quotes is written as it is. -/
theorem doubled_of_quote_notMem {text : List UInt8} (free : quote ∉ text)
    : doubled text = text := by
  induction text with
  | nil => rfl
  | cons byte rest ih =>
      rw [List.mem_cons, not_or] at free
      rw [doubled, List.flatMap_cons, if_neg (Ne.symm free.1), ← doubled, ih free.2]
      rfl

@[simp] theorem symbols_append (left right : List UInt8)
    : symbols (left ++ right) = symbols left ++ symbols right :=
  List.map_append

/-- Inside of quotes, a text with its quotes doubled is read as the text, by induction on it. -/
theorem tokens_doubled (content rest : List Symbol) (text : List UInt8)
    : (Mode.inside quote content).tokens (symbols (doubled text) ++ rest)
      = (Mode.inside quote (content ++ symbols text)).tokens rest := by
  induction text generalizing content with
  | nil => simp [doubled, symbols]
  | cons byte text ih =>
      have next := ih (content ++ [.byte byte])
      rw [List.append_assoc] at next
      rw [← List.singleton_append, doubled_append, symbols_append, symbols_append, List.append_assoc]
      by_cases same : byte = quote
      · subst same
        simpa [doubled, symbols, Mode.tokens, Mode.step] using next
      · simpa [doubled, symbols, Mode.tokens, Mode.step, same] using next

/-- A text between quotes, with its own quotes doubled, is the literal of the text. -/
theorem tokens_literal (text : List UInt8) {rest : List Symbol} (ended : rest.head? ≠ some (.byte quote))
    : tokens (symbols (quote :: doubled text ++ [quote]) ++ rest)
      = .quoted quote (symbols text) :: tokens rest := by
  have opened : tokens (symbols (quote :: doubled text ++ [quote]) ++ rest)
      = (Mode.inside quote []).tokens (symbols (doubled text) ++ (.byte quote :: rest)) := by
    simp [tokens, Mode.tokens, Mode.step, Mode.stepOutside, symbols, isDelimiter]
  rw [opened, tokens_doubled]
  simp only [Mode.tokens, Mode.step, if_true, List.nil_append]
  cases rest with
  | nil => rfl
  | cons symbol rest =>
      rw [List.head?_cons, ne_eq, Option.some.injEq] at ended
      simp [tokens, Mode.tokens, Mode.step, ended]

/-- A byte of the text means the same whether the arguments before it are in their places or not. -/
theorem step_denoted (mode : Mode) (byte : UInt8)
    : mode.denoted.step (.byte byte)
      = ((mode.step (.byte byte)).1.map Token.denoted, (mode.step (.byte byte)).2.denoted) := by
  have outside (mode : Mode)
      : mode.stepOutside (.byte byte)
        = ((mode.stepOutside (.byte byte)).1.map Token.denoted,
          (mode.stepOutside (.byte byte)).2.denoted) := by
    unfold Mode.stepOutside
    dsimp only
    split_ifs <;> rfl
  cases mode with
  | outside => exact outside .outside
  | hyphen => exact outside .hyphen
  | slash => exact outside .slash
  | lineComment =>
      simp only [Mode.denoted, Mode.step]
      split_ifs <;> rfl
  | comment asterisk =>
      simp only [Mode.denoted, Mode.step]
      split_ifs <;> rfl
  | inside delimiter content =>
      simp only [Mode.denoted, Mode.step]
      split_ifs <;> simp [Symbol.denoted]
  | closing delimiter content =>
      simp only [Mode.denoted, Mode.step]
      split_ifs
      · simp [Symbol.denoted]
      · have same := Prod.mk.inj (outside .outside)
        exact Prod.ext (congrArg (_ :: ·) same.1) same.2
  | bracket content =>
      simp only [Mode.denoted, Mode.step]
      split_ifs <;> simp [Token.denoted, Symbol.denoted]

/-- The end of a statement means the same whether the arguments are in their places or not. -/
theorem finish_denoted (mode : Mode)
    : mode.denoted.finish = mode.finish.map Token.denoted := by
  cases mode <;> rfl

/-- If all arguments stand inside of quotes, a statement in which they are written with their quotes
doubled has the tokens of the statement with the arguments in their places, by induction on the
statement.
-/
theorem tokens_written {mode : Mode} {statement : List Symbol}
    (arguments : mode.ArgumentsQuoted statement)
    : mode.denoted.tokens (symbols (statement.flatMap Symbol.written))
      = (mode.tokens statement).map Token.denoted := by
  induction statement generalizing mode with
  | nil => exact finish_denoted mode
  | cons symbol rest ih =>
      rw [List.flatMap_cons, symbols_append]
      cases symbol with
      | byte byte =>
          have next := ih arguments
          simp only [Symbol.written, symbols, List.map_cons, List.map_nil, List.cons_append,
            List.nil_append, Mode.tokens, step_denoted, List.map_append]
          exact congrArg _ next
      | argument text =>
          obtain ⟨⟨content, rfl⟩, arguments⟩ := arguments
          have next := ih arguments
          have kept : Symbol.argument text ≠ .byte quote := nofun
          simp only [Mode.step, if_neg kept] at next
          simp only [Mode.tokens, Mode.step, if_neg kept, List.nil_append]
          rw [← next, Symbol.written, Mode.denoted, tokens_doubled, Mode.denoted, List.flatMap_append]
          simp [Symbol.denoted]

-----------------------------------------------------------------------------------------
-- Text outside of quotes
-----------------------------------------------------------------------------------------

/-- A byte that begins no quoted token and no comment. -/
def IsInert (byte : UInt8) : Prop :=
  ¬isDelimiter byte ∧ byte ≠ 91 ∧ byte ≠ 45 ∧ byte ≠ 47

instance : DecidablePred IsInert :=
  fun _ => inferInstanceAs (Decidable (_ ∧ _))

/-- The tokens of a text outside of quotes. -/
def plainTokens (text : List UInt8) : List Token :=
  text.map fun byte => .plain (.byte byte)

/-- The rest of a statement does not go on with a delimiter. -/
def StartsPlain (rest : List Symbol) : Prop :=
  ∀ byte, rest.head? = some (.byte byte) → ¬isDelimiter byte

/-- A text outside of quotes has these tokens, if no delimiter follows it. -/
def Reads (text : List UInt8) (found : List Token) : Prop :=
  ∀ rest, StartsPlain rest → tokens (symbols text ++ rest) = found ++ tokens rest

/-- Nothing follows the end of a statement. -/
theorem startsPlain_nil : StartsPlain [] := nofun

/-- A text that begins no quoted token and no comment is read byte by byte, by induction on it. -/
theorem tokens_plain {text : List UInt8} (inert : ∀ byte ∈ text, IsInert byte) (rest : List Symbol)
    : tokens (symbols text ++ rest) = plainTokens text ++ tokens rest := by
  induction text with
  | nil => rfl
  | cons byte text ih =>
      obtain ⟨delimiter, bracket, hyphen, slash⟩ := inert byte List.mem_cons_self
      have next := ih fun other mem => inert other (List.mem_cons_of_mem byte mem)
      rw [tokens] at next ⊢
      simp only [symbols, plainTokens, List.map_cons, List.cons_append, Mode.tokens, Mode.step,
        Mode.stepOutside, delimiter, bracket, hyphen, slash, if_false, Bool.false_eq_true] at next ⊢
      simpa using next

/-- A text that begins no quoted token and no comment is read byte by byte. -/
theorem reads_plain {text : List UInt8} (inert : ∀ byte ∈ text, IsInert byte)
    : Reads text (plainTokens text) :=
  fun rest _ => tokens_plain inert rest

/-- A text behind one that begins no quoted token and no comment is read after it. -/
theorem Reads.behind_plain {left right : List UInt8} {found : List Token}
    (inert : ∀ byte ∈ left, IsInert byte) (reads : Reads right found)
    : Reads (left ++ right) (plainTokens left ++ found) := by
  intro rest plain
  rw [symbols_append, List.append_assoc, tokens_plain inert, reads rest plain, List.append_assoc]

/-- A text between quotes, with its own quotes doubled, is read as the literal of the text. -/
theorem reads_literal (text : List UInt8)
    : Reads (quote :: doubled text ++ [quote]) [.quoted quote (symbols text)] :=
  fun _ plain => tokens_literal text fun first => plain quote first (by decide)

/-- A text between delimiters that it does not contain is read as a quoted token. -/
theorem reads_enclosed {delimiter : UInt8} (opens : isDelimiter delimiter) {text : List UInt8}
    (free : delimiter ∉ text)
    : Reads (delimiter :: text ++ [delimiter]) [.quoted delimiter (symbols text)] := by
  intro rest plain
  have inside (content : List Symbol)
      : (Mode.inside delimiter content).tokens (symbols text ++ .byte delimiter :: rest)
        = .quoted delimiter (content ++ symbols text) :: tokens rest := by
    induction text generalizing content with
    | nil =>
        cases rest with
        | nil => simp [symbols, Mode.tokens, Mode.step, Mode.finish, tokens]
        | cons symbol rest =>
            have ended : symbol ≠ .byte delimiter :=
              fun same => plain delimiter (by rw [same]; rfl) opens
            simp [symbols, Mode.tokens, Mode.step, tokens, ended]
    | cons byte text ih =>
        rw [List.mem_cons, not_or] at free
        have kept : byte ≠ delimiter := Ne.symm free.1
        have next := ih free.2 (content ++ [.byte byte])
        simpa [symbols, Mode.tokens, Mode.step, kept] using next
  have opened : tokens (symbols (delimiter :: text ++ [delimiter]) ++ rest)
      = (Mode.inside delimiter []).tokens (symbols text ++ .byte delimiter :: rest) := by
    simp [tokens, Mode.tokens, Mode.step, Mode.stepOutside, symbols, opens]
  rw [opened, inside, List.nil_append, List.singleton_append]

/-- Texts in a row are read one after the other if the second does not begin with a delimiter. -/
theorem Reads.append {left right : List UInt8} {found found' : List Token}
    (first : Reads left found) (second : Reads right found')
    (plain : ∀ byte, right.head? = some byte → ¬isDelimiter byte)
    : Reads (left ++ right) (found ++ found') := by
  intro rest restPlain
  rw [symbols_append, List.append_assoc, first _ ?_, second rest restPlain, List.append_assoc]
  intro byte start
  cases right with
  | nil => exact restPlain byte start
  | cons other right =>
      obtain rfl : other = byte := by simpa [symbols] using start
      exact plain other rfl

/-- A text between two that begin no quoted token and no comment is read between their tokens. -/
theorem Reads.between {front text behind : List UInt8} {found : List Token} (reads : Reads text found)
    (frontInert : ∀ byte ∈ front, IsInert byte) (behindInert : ∀ byte ∈ behind, IsInert byte)
    : Reads (front ++ (text ++ behind)) (plainTokens front ++ (found ++ plainTokens behind)) := by
  refine (reads.append (reads_plain behindInert) ?_).behind_plain frontInert
  exact fun byte first => (behindInert byte (List.mem_of_mem_head? first)).1

/-- A text that is read as tokens has these tokens as a statement. -/
theorem Reads.tokens_eq {text : List UInt8} {found : List Token} (reads : Reads text found)
    : tokens (symbols text) = found := by
  have whole := reads [] startsPlain_nil
  rwa [List.append_nil, show tokens [] = [] from rfl, List.append_nil] at whole

end QuotedTokens
