import LintHub.Shell.Script

/-! # Reading shell scripts

A script is cut into words and operators, which are then put together to commands. Scripts inside a
script are read in the same way; the fuel bounds how deep they lie.
-/

namespace LintHub.Shell

/-- What a script is cut into, each with the line on which it starts. -/
inductive Token where
  | word (parts : Word)
  | operator (s : String)
  | redirect (stream : Nat) (how : Redirection)

structure Placed where
  line : Nat
  token : Token

/-- Why a script cannot be read. -/
inductive ReadFault where
  | openQuote
  | openCommand
  | unexpected (what : String)
  | tooDeep
  deriving DecidableEq, Repr

def ReadFault.message : ReadFault → String
  | openQuote => "Syntax error: Unterminated quoted string"
  | openCommand => "Syntax error: end of file unexpected"
  | unexpected what => s!"Syntax error: {what} unexpected"
  | tooDeep => "Syntax error: too deep"

/-! ## Characters -/

def isNameChar (c : Char) : Bool := c.isAlphanum || c == '_'

def isSpecialName (c : Char) : Bool :=
  c.isDigit || ['@', '*', '#', '?', '$', '!', '-'].contains c

def endsWord (c : Char) : Bool :=
  [' ', '\t', '\n', ';', '&', '|', '(', ')', '<', '>'].contains c

/-- The characters up to the bracket that closes what is open, and the rest. Quotes are skipped. -/
def upToClose (closing opening : Char) (depth : Nat) (done : List Char) :
    List Char → Option (List Char × List Char)
  | [] => none
  | '\\' :: c :: cs => upToClose closing opening depth (c :: '\\' :: done) cs
  | c :: cs =>
    if c == closing then
      match depth with
      | 0 => some (done.reverse, cs)
      | d + 1 => upToClose closing opening d (c :: done) cs
    else upToClose closing opening (if c == opening then depth + 1 else depth) (c :: done) cs

/-- The parts of a word with what follows it. -/
abbrev PartsRead := Except ReadFault (Word × List Char)

mutual

/-- What stands after a dollar sign. -/
def readDollar (fuel : Nat) (quoted : Bool) (cs : List Char) : Except ReadFault (Part × List Char) :=
  match fuel with
  | 0 => .error .tooDeep
  | fuel + 1 =>
    match cs with
    | '(' :: cs =>
      match upToClose ')' '(' 0 [] cs with
      | none => .error .openCommand
      | some (inner, rest) => do return (.output (← readScript fuel inner) quoted, rest)
    | '\x7b' :: cs =>
      match upToClose '\x7d' '\x7b' 0 [] cs with
      | none => .error .openQuote
      | some (inner, rest) => do
        let name :=
          match inner with
          | c :: _ => if isNameChar c then inner.takeWhile isNameChar else [c]
          | [] => []
        match inner.drop name.length with
        | [] => return (.value (String.ofList name) quoted, rest)
        | ':' :: '-' :: other | '-' :: other =>
          let (parts, _) ← readParts fuel true [] [] other
          return (.valueOr (String.ofList name) parts quoted, rest)
        | _ => throw (.unexpected "substitution")
    | c :: rest =>
      if isSpecialName c then .ok (.value c.toString quoted, rest)
      else if isNameChar c then
        let name := cs.takeWhile isNameChar
        .ok (.value (String.ofList name) quoted, cs.drop name.length)
      else .ok (.text "$" quoted, cs)
    | [] => .ok (.text "$" quoted, [])

/-- The parts of a word; `plain` holds plain characters, last first, that are not yet a part. Inside
double quotes `quoted` holds, and the word goes on to the closing quote or the end. -/
def readParts (fuel : Nat) (quoted : Bool) (done : Word) (plain : List Char) (cs : List Char) :
    PartsRead :=
  match fuel with
  | 0 => .error .tooDeep
  | fuel + 1 =>
    let flush (quoted : Bool) : Word :=
      if plain.isEmpty then done else done ++ [.text (String.ofList plain.reverse) quoted]
    match cs with
    | [] => .ok (flush quoted, [])
    | '$' :: cs => do
      let (part, rest) ← readDollar fuel quoted cs
      readParts fuel quoted (flush quoted ++ [part]) [] rest
    | c :: cs =>
      if quoted then
        match c, cs with
        | '"', cs => .ok (flush true ++ [.text "" true], '"' :: cs)
        | '\\', d :: rest =>
          if d == '\n' then readParts fuel quoted done plain rest
          else if ['$', '"', '\\', '`'].contains d then readParts fuel quoted done (d :: plain) rest
          else readParts fuel quoted done (d :: '\\' :: plain) rest
        | c, cs => readParts fuel quoted done (c :: plain) cs
      else if endsWord c then .ok (flush false, c :: cs)
      else
        match c, cs with
        | '\'', cs =>
          let inner := cs.takeWhile (· != '\'')
          match cs.drop inner.length with
          | [] => .error .openQuote
          | _ :: rest =>
            readParts fuel false (flush false ++ [.text (String.ofList inner) true]) [] rest
        | '"', cs =>
          match readParts fuel true [] [] cs with
          | .ok (parts, '"' :: rest) => readParts fuel false (flush false ++ parts) [] rest
          | .ok _ => .error .openQuote
          | .error e => .error e
        | '\\', '\n' :: rest => readParts fuel false done plain rest
        | '\\', d :: rest =>
          readParts fuel false (flush false ++ [.text d.toString true]) [] rest
        | c, cs => readParts fuel false done (c :: plain) cs

/-- The words and operators of a script. -/
def readTokens (fuel : Nat) (line : Nat) (done : List Placed) (cs : List Char) :
    Except ReadFault (List Placed) :=
  match fuel with
  | 0 => .error .tooDeep
  | fuel + 1 =>
    let operator (s : String) (cs : List Char) : Except ReadFault (List Placed) :=
      readTokens fuel line (⟨line, .operator s⟩ :: done) cs
    let redirect (stream : Nat) (how : Redirection) (cs : List Char) :
        Except ReadFault (List Placed) :=
      readTokens fuel line (⟨line, .redirect stream how⟩ :: done) cs
    match cs with
    | [] => .ok done.reverse
    | ' ' :: cs | '\t' :: cs | '\\' :: '\n' :: cs => readTokens fuel line done cs
    | '#' :: cs => readTokens fuel line done (cs.dropWhile (· != '\n'))
    | '\n' :: cs => readTokens fuel (line + 1) (⟨line, .operator ";"⟩ :: done) cs
    | '&' :: '&' :: cs => operator "&&" cs
    | '|' :: '|' :: cs => operator "||" cs
    | ';' :: cs => operator ";" cs
    | '&' :: cs => operator ";" cs
    | '|' :: cs => operator "|" cs
    | '(' :: cs => operator "(" cs
    | ')' :: cs => operator ")" cs
    | '>' :: '>' :: cs => redirect 1 .append cs
    | '>' :: '&' :: cs => redirect 1 .duplicate cs
    | '>' :: '|' :: cs => redirect 1 .write cs
    | '>' :: cs => redirect 1 .write cs
    | '<' :: cs => redirect 0 .read cs
    | '1' :: '>' :: '>' :: cs => redirect 1 .append cs
    | '2' :: '>' :: '>' :: cs => redirect 2 .append cs
    | '1' :: '>' :: '&' :: cs => redirect 1 .duplicate cs
    | '2' :: '>' :: '&' :: cs => redirect 2 .duplicate cs
    | '1' :: '>' :: cs => redirect 1 .write cs
    | '2' :: '>' :: cs => redirect 2 .write cs
    | '0' :: '<' :: cs => redirect 0 .read cs
    | cs => do
      let (parts, rest) ← readParts fuel false [] [] cs
      readTokens fuel line (⟨line, .word parts⟩ :: done) rest

/-- The command that stands first; `stops` are the words that end a list of commands. -/
def readList (fuel : Nat) (stops : List String) (ts : List Placed) :
    Except ReadFault (Command × List Placed) :=
  match fuel with
  | 0 => .error .tooDeep
  | fuel + 1 =>
    match ts with
    | [] => .ok (.nothing, [])
    | ⟨_, .operator ";"⟩ :: ts => readList fuel stops ts
    | ⟨_, .operator ")"⟩ :: _ => .ok (.nothing, ts)
    | ⟨_, .word [.text s false]⟩ :: _ =>
      if stops.contains s then .ok (.nothing, ts) else readMore fuel stops ts
    | ts => readMore fuel stops ts

/-- A chain of commands and the commands after it. -/
def readMore (fuel : Nat) (stops : List String) (ts : List Placed) :
    Except ReadFault (Command × List Placed) :=
  match fuel with
  | 0 => .error .tooDeep
  | fuel + 1 => do
    let (first, ts) ← readPipe fuel stops ts
    let (chain, ts) ← readChain fuel stops first ts
    match ts with
    | ⟨_, .operator ";"⟩ :: ts =>
      let (rest, ts) ← readList fuel stops ts
      return (.sequence chain rest, ts)
    | [] => return (chain, [])
    | ⟨_, .operator ")"⟩ :: _ => return (chain, ts)
    | ⟨_, .word [.text s false]⟩ :: _ =>
      if stops.contains s then return (chain, ts) else throw (.unexpected "word")
    | _ => throw (.unexpected "word")

/-- What follows a command with `&&` or `||`. -/
def readChain (fuel : Nat) (stops : List String) (first : Command) (ts : List Placed) :
    Except ReadFault (Command × List Placed) :=
  match fuel with
  | 0 => .error .tooDeep
  | fuel + 1 => do
    match ts with
    | ⟨_, .operator "&&"⟩ :: ts =>
      let (second, ts) ← readPipe fuel stops (skipLines ts)
      readChain fuel stops (.andThen first second) ts
    | ⟨_, .operator "||"⟩ :: ts =>
      let (second, ts) ← readPipe fuel stops (skipLines ts)
      readChain fuel stops (.orElse first second) ts
    | ts => return (first, ts)
where
  /-- Line ends after an operator do not count. -/
  skipLines : List Placed → List Placed
    | ⟨_, .operator ";"⟩ :: ts => skipLines ts
    | ts => ts

/-- Commands joined by pipes. -/
def readPipe (fuel : Nat) (stops : List String) (ts : List Placed) :
    Except ReadFault (Command × List Placed) :=
  match fuel with
  | 0 => .error .tooDeep
  | fuel + 1 => do
    match ts with
    | ⟨_, .word [.text "!" false]⟩ :: ts =>
      let (c, ts) ← readPipe fuel stops ts
      return (.negated c, ts)
    | ts =>
      let (source, ts) ← readOne fuel ts
      match ts with
      | ⟨_, .operator "|"⟩ :: ts =>
        let (sink, ts) ← readPipe fuel stops ts
        return (.pipe source sink, ts)
      | ts => return (source, ts)

/-- The end of a compound command: its last word and the redirections behind it. -/
def readEnd (fuel : Nat) (last : String) (body : Command) (ts : List Placed) :
    Except ReadFault (Command × List Placed) :=
  match fuel with
  | 0 => .error .tooDeep
  | fuel + 1 =>
    match ts with
    | ⟨_, .word [.text s false]⟩ :: ts =>
      if s == last then readRedirects fuel body ts else .error (.unexpected ("\"" ++ s ++ "\""))
    | _ :: _ => .error (.unexpected "word")
    | [] => .error .openCommand

def readRedirects (fuel : Nat) (body : Command) (ts : List Placed) :
    Except ReadFault (Command × List Placed) :=
  match fuel with
  | 0 => .error .tooDeep
  | fuel + 1 =>
    match ts with
    | ⟨_, .redirect stream how⟩ :: ⟨_, .word target⟩ :: ts => do
      let (c, ts) ← readRedirects fuel body ts
      return (.redirected c stream how target, ts)
    | ⟨_, .redirect ..⟩ :: _ => .error (.unexpected "redirection")
    | ts => .ok (body, ts)

/-- What follows the condition of a choice. -/
def readBranches (fuel : Nat) (condition yes : Command) (ts : List Placed) :
    Except ReadFault (Command × List Placed) :=
  match fuel with
  | 0 => .error .tooDeep
  | fuel + 1 =>
    match ts with
    | ⟨_, .word [.text "else" false]⟩ :: ts => do
      let (no, ts) ← readList fuel ["fi"] ts
      readEnd fuel "fi" (.choice condition yes no) ts
    | ⟨_, .word [.text "elif" false]⟩ :: ts => do
      let (next, ts) ← readChoice fuel ts
      return (.choice condition yes next, ts)
    | ts => readEnd fuel "fi" (.choice condition yes .nothing) ts

def readChoice (fuel : Nat) (ts : List Placed) : Except ReadFault (Command × List Placed) :=
  match fuel with
  | 0 => .error .tooDeep
  | fuel + 1 => do
    let (condition, ts) ← readList fuel ["then"] ts
    match ts with
    | ⟨_, .word [.text "then" false]⟩ :: ts =>
      let (yes, ts) ← readList fuel ["else", "elif", "fi"] ts
      readBranches fuel condition yes ts
    | _ :: _ => throw (.unexpected "word")
    | [] => throw .openCommand

/-- The body of a loop. -/
def readBody (fuel : Nat) (loop : Command → Command) (ts : List Placed) :
    Except ReadFault (Command × List Placed) :=
  match fuel with
  | 0 => .error .tooDeep
  | fuel + 1 => do
    match ts with
    | ⟨_, .operator ";"⟩ :: ts => readBody fuel loop ts
    | ⟨_, .word [.text "do" false]⟩ :: ts =>
      let (body, ts) ← readList fuel ["done"] ts
      readEnd fuel "done" (loop body) ts
    | _ :: _ => throw (.unexpected "word")
    | [] => throw .openCommand

/-- One command. -/
def readOne (fuel : Nat) (ts : List Placed) : Except ReadFault (Command × List Placed) :=
  match fuel with
  | 0 => .error .tooDeep
  | fuel + 1 =>
    match ts with
    | ⟨_, .operator "("⟩ :: ts => do
      let (body, ts) ← readList fuel [] ts
      match ts with
      | ⟨_, .operator ")"⟩ :: ts => readRedirects fuel (.subshell body) ts
      | _ => throw .openCommand
    | ⟨_, .word [.text "\x7b" false]⟩ :: ts => do
      let (body, ts) ← readList fuel ["\x7d"] ts
      readEnd fuel "\x7d" body ts
    | ⟨_, .word [.text "if" false]⟩ :: ts => readChoice fuel ts
    | ⟨_, .word [.text "while" false]⟩ :: ts => do
      let (condition, ts) ← readList fuel ["do"] ts
      readBody fuel (.loop false condition) ts
    | ⟨_, .word [.text "until" false]⟩ :: ts => do
      let (condition, ts) ← readList fuel ["do"] ts
      readBody fuel (.loop true condition) ts
    | ⟨_, .word [.text "for" false]⟩ :: ⟨_, .word [.text name false]⟩ :: ts =>
      match ts with
      | ⟨_, .word [.text "in" false]⟩ :: ts =>
        let words := ts.filterMap fun t =>
          match t.token with
          | .word w => some w
          | _ => none
        let count := (ts.takeWhile fun t =>
          match t.token with
          | .word _ => true
          | _ => false).length
        readBody fuel (.each name (some (words.take count))) (ts.drop count)
      | ts => readBody fuel (.each name none) ts
    | ⟨line, _⟩ :: _ => readSimple fuel line [] [] ts
    | [] => .error .openCommand

/-- A simple command: what it sets, its words, and its redirections in any place. -/
def readSimple (fuel : Nat) (line : Nat) (sets : List (String × Word)) (words : List Word)
    (ts : List Placed) : Except ReadFault (Command × List Placed) :=
  match fuel with
  | 0 => .error .tooDeep
  | fuel + 1 =>
    match ts with
    | ⟨_, .word parts⟩ :: ts =>
      match words, assignment? parts with
      | [], some set => readSimple fuel line (sets ++ [set]) words ts
      | _, _ => readSimple fuel line sets (words ++ [parts]) ts
    | ⟨_, .redirect stream how⟩ :: ⟨_, .word target⟩ :: ts => do
      let (c, ts) ← readSimple fuel line sets words ts
      return (.redirected c stream how target, ts)
    | ⟨_, .redirect ..⟩ :: _ => .error (.unexpected "redirection")
    | ts =>
      if sets.isEmpty && words.isEmpty then
        match ts with
        | ⟨_, .operator s⟩ :: _ => .error (.unexpected ("\"" ++ s ++ "\""))
        | _ => .ok (.nothing, ts)
      else .ok (.simple line sets words, ts)
where
  /-- A name, an equals sign and a value. -/
  assignment? : Word → Option (String × Word)
    | .text s false :: rest =>
      let name := s.toList.takeWhile isNameChar
      match name, s.toList.drop name.length with
      | c :: _, '=' :: value =>
        if c.isDigit then none
        else
          some (String.ofList name,
            if value.isEmpty then rest else .text (String.ofList value) false :: rest)
      | _, _ => none
    | _ => none

/-- A whole script. -/
def readScript (fuel : Nat) (cs : List Char) : Except ReadFault Command :=
  match fuel with
  | 0 => .error .tooDeep
  | fuel + 1 => do
    let ts ← readTokens fuel 1 [] cs
    let (c, rest) ← readList fuel [] ts
    match rest with
    | [] => return c
    | ⟨_, .operator s⟩ :: _ => throw (.unexpected ("\"" ++ s ++ "\""))
    | _ => throw (.unexpected "word")

end

/-- Reads a script. -/
def Command.ofText (s : String) : Except ReadFault Command :=
  readScript (8 * s.length + 64) s.toList

end LintHub.Shell
