import CodeEntities.Toml.Quoted

namespace CodeEntities.Toml

def isBlank (c : Char) : Bool := c == ' ' || c == '\t'

def dropLineEnd? : List Char → Option (List Char)
  | '\n' :: cs => some cs
  | '\r' :: '\n' :: cs => some cs
  | _ => none

def dropComment (cs : List Char) : List Char :=
  if cs.head? == some '#' then cs.dropWhile isPlain else cs

def endLine? (cs : List Char) : Option (List Char) :=
  match dropComment (cs.dropWhile isBlank) with
  | [] => some []
  | rest => dropLineEnd? rest

def dropSpace : Nat → List Char → List Char
  | 0, cs => cs
  | fuel + 1, cs =>
    let rest := dropComment (cs.dropWhile isBlank)
    match dropLineEnd? rest with
    | some more => dropSpace fuel more
    | none => rest

def isKeyChar (c : Char) : Bool := c.isAlphanum || c == '-' || c == '_'

def keyPart? (cs : List Char) : Option (String × List Char) :=
  match cs with
  | '"' :: rest => (readBasic [] rest).map fun (key, rest) => (String.ofList key, rest)
  | '\'' :: rest => (readLiteral [] rest).map fun (key, rest) => (String.ofList key, rest)
  | _ =>
    let word := cs.takeWhile isKeyChar
    if word.isEmpty then none else some (String.ofList word, cs.drop word.length)

def key? : Nat → List Char → Option (List String × List Char)
  | 0, _ => none
  | fuel + 1, cs => do
    let (part, rest) ← keyPart? (cs.dropWhile isBlank)
    match rest.dropWhile isBlank with
    | '.' :: more =>
      let (parts, rest) ← key? fuel more
      pure (part :: parts, rest)
    | rest => pure ([part], rest)

mutual

def value? : Nat → List Char → Option (Value × List Char)
  | 0, _ => none
  | fuel + 1, cs =>
    match cs with
    | '[' :: rest => (items? fuel rest).map fun (items, rest) => (.array items, rest)
    | '{' :: rest =>
      match rest.dropWhile isBlank with
      | '}' :: rest => some (.inlineTable [], rest)
      | rest =>
        (members? fuel [] rest).map fun (entries, rest) => (.inlineTable entries, rest)
    | _ =>
      match readString? cs with
      | some (text, rest) => some (.string (String.ofList text), rest)
      | none =>
        let (word, rest) := scalarChars cs
        (scalar? word).map fun v => (v, rest)

def items? : Nat → List Char → Option (List Value × List Char)
  | 0, _ => none
  | fuel + 1, cs =>
    match dropSpace cs.length cs with
    | ']' :: rest => some ([], rest)
    | rest => do
      let (v, rest) ← value? fuel rest
      match dropSpace rest.length rest with
      | ',' :: rest =>
        let (items, rest) ← items? fuel rest
        pure (v :: items, rest)
      | ']' :: rest => pure ([v], rest)
      | _ => none

def members? : Nat → Entries → List Char → Option (Entries × List Char)
  | 0, _, _ => none
  | fuel + 1, entries, cs => do
    let (key, rest) ← key? (cs.length + 1) cs
    match rest with
    | '=' :: rest =>
      let (v, rest) ← value? fuel (rest.dropWhile isBlank)
      let entries ← entries.assign? key v
      match rest.dropWhile isBlank with
      | ',' :: rest => members? fuel entries rest
      | '}' :: rest => pure (entries, rest)
      | _ => none
    | _ => none

end

def header? (cs : List Char) : Option (List String × Bool × List Char) :=
  match cs with
  | '[' :: '[' :: rest =>
    match key? (rest.length + 1) rest with
    | some (key, ']' :: ']' :: rest) => some (key, true, rest)
    | _ => none
  | '[' :: rest =>
    match key? (rest.length + 1) rest with
    | some (key, ']' :: rest) => some (key, false, rest)
    | _ => none
  | _ => none

def lines? : Nat → List String → Entries → List Char → Option Entries
  | 0, _, _, _ => none
  | fuel + 1, header, entries, cs =>
    match cs.dropWhile isBlank with
    | [] => some entries
    | '[' :: rest => do
      let (key, isElement, rest) ← header? ('[' :: rest)
      let entries ← if isElement then entries.openElement? key else entries.openTable? key
      lines? fuel key entries (← endLine? rest)
    | c :: rest =>
      match endLine? (c :: rest) with
      | some more => lines? fuel header entries more
      | none => do
        let (key, rest) ← key? (rest.length + 2) (c :: rest)
        match rest with
        | '=' :: rest =>
          let (v, rest) ← value? (rest.length + 1) (rest.dropWhile isBlank)
          let entries ← entries.assignIn? header key v
          lines? fuel header entries (← endLine? rest)
        | _ => none

def parse? (text : String) : Option Entries :=
  let cs := if text.toList.head? == some '\ufeff' then text.toList.tail else text.toList
  lines? (cs.length + 1) [] [] cs

end CodeEntities.Toml
