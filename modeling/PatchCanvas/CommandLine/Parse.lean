import PatchCanvas.CommandLine.Request
import PatchCanvas.Text.Digits

/-!
# Reading command lines

Words are read from left to right. Options begin with two hyphens, or with one hyphen and a letter;
several letters may share a hyphen. The value of an option follows in the same word, after `=` or
straight after the letter, or it is the next word, if that does not begin with a hyphen; a single
hyphen is a word like others. After the word `--` no word is an option.

A value in a word of its own is looked at when the next word that makes sense has been reached.
Therefore a word that makes no sense is reported before a bad value in front of it.
-/

namespace PatchCanvas.CommandLine

/-- What was said so far. -/
structure Draft where
  name : Option String
  config : Option String
  dir : Option String
  palette : Option String
  remap : Option String
  output : Option String
  format : Option Format
  width : Option Nat
  height : Option Nat
  scale : Option Nat
  keepMask : Bool
  strict : Bool
  json : Bool

/-- Nothing was said. -/
def Draft.blank : Draft where
  name := none
  config := none
  dir := none
  palette := none
  remap := none
  output := none
  format := none
  width := none
  height := none
  scale := none
  keepMask := false
  strict := false
  json := false

/-- What an option does to a draft. -/
inductive Action where
  /-- Asks for help. -/
  | help
  /-- Says something by being there. -/
  | flag (isSet : Draft → Bool) (set : Draft → Draft)
  /-- Says something by its value. -/
  | value (isSet : Draft → Bool) (set : Draft → String → Except Refusal Draft)

/-- An option of a command. -/
structure OptionRule where
  name : String
  letter : Option Char
  action : Action

/-! ## Values -/

/-- A value that can be any text. -/
def readText (word : String) : Except Refusal String := .ok word

/-- A value that is a path. -/
def readPath (word : String) : Except Refusal String :=
  if word = "" then .error .badValue else .ok word

def readFormat (word : String) : Except Refusal Format :=
  match Format.ofName? word with
  | some format => .ok format
  | none => .error .badValue

/-- The number that one decimal digit or more stand for, if it is at most `most`. -/
def naturalUpTo? (most : Nat) (digits : List Char) : Option Nat :=
  if digits ≠ [] ∧ digits.all Text.isDigit then Text.numberUpTo? most 10 digits else none

/-- A value that is a whole number from `low` to `high`, with an optional sign. -/
def readNumber (low high : Nat) (word : String) : Except Refusal Nat :=
  let number? := match word.toList with
    | '+' :: digits => naturalUpTo? high digits
    | '-' :: digits => naturalUpTo? 0 digits
    | digits => naturalUpTo? high digits
  match number? with
  | some number => if low ≤ number then .ok number else .error .badNumber
  | none => .error .badNumber

/-! ## The options of the commands -/

/-- An option that can be given once and whose value is read by `read`. -/
def once {α : Type} (name : String) (letter : Option Char) (read : String → Except Refusal α)
    (get : Draft → Option α) (set : Draft → α → Draft) : OptionRule where
  name := name
  letter := letter
  action := .value (fun draft => (get draft).isSome) fun draft word =>
    (read word).map (set draft)

/-- An option without a value that can be given once. -/
def switch (name : String) (get : Draft → Bool) (set : Draft → Draft) : OptionRule where
  name := name
  letter := none
  action := .flag get set

def helpRule : OptionRule where
  name := "help"
  letter := some 'h'
  action := .help

def configRule : OptionRule :=
  once "config" none readPath Draft.config fun draft path => { draft with config := some path }

def dirRule : OptionRule :=
  once "dir" none readPath Draft.dir fun draft path => { draft with dir := some path }

/-- The options of every command that writes pictures. -/
def commonRules : List OptionRule :=
  [helpRule, configRule, dirRule,
   once "palette" none readText Draft.palette fun draft name =>
     { draft with palette := some name },
   once "translation" none readText Draft.remap fun draft name =>
     { draft with remap := some name },
   once "scale" none (readNumber 1 16) Draft.scale fun draft factor =>
     { draft with scale := some factor },
   switch "opaque" Draft.keepMask fun draft => { draft with keepMask := true },
   switch "strict" Draft.strict fun draft => { draft with strict := true }]

def renderRules : List OptionRule :=
  [once "format" (some 'f') readFormat Draft.format fun draft format =>
     { draft with format := some format },
   once "width" none (readNumber 0 65535) Draft.width fun draft width =>
     { draft with width := some width },
   once "height" none (readNumber 0 65535) Draft.height fun draft height =>
     { draft with height := some height },
   once "output" (some 'o') readPath Draft.output fun draft path =>
     { draft with output := some path }] ++ commonRules

def compositeRules : List OptionRule :=
  [once "out" (some 'o') readPath Draft.output fun draft path =>
     { draft with output := some path }] ++ commonRules

def inspectRules : List OptionRule :=
  [helpRule, dirRule, configRule,
   switch "json" Draft.json fun draft => { draft with json := true }]

/-! ## Reading words -/

/-- An option whose value is a word of its own: it was named, and perhaps the word is there. -/
structure Pending where
  isSet : Draft → Bool
  set : Draft → String → Except Refusal Draft
  word : Option String

/-- Where the reading of a command's words is. -/
structure Progress where
  draft : Draft
  pending : Option Pending

/-- Takes an option with its value into the draft. -/
def assign (isSet : Draft → Bool) (set : Draft → String → Except Refusal Draft) (draft : Draft)
    (word : String) : Except Refusal Draft :=
  if isSet draft then .error .repeated else set draft word

namespace Progress

/-- Takes the option that waits for its value into the draft. -/
def settle (progress : Progress) : Except Refusal Draft :=
  match progress.pending with
  | none => .ok progress.draft
  | some pending =>
    match pending.word with
    | none => .error .badValue
    | some word => assign pending.isSet pending.set progress.draft word

/-- The option that waits for the next word. -/
def waiting? (progress : Progress) : Option Pending :=
  progress.pending.filter fun pending => pending.word.isNone

/-- Does what an option without a value says. -/
def raise (progress : Progress) (isSet : Draft → Bool) (set : Draft → Draft) :
    Except Refusal Progress := do
  let draft ← progress.settle
  if isSet draft then .error .repeated else return ⟨set draft, none⟩

/-- Takes an option whose value stands in the same word, or waits for the next word. -/
def accept (progress : Progress) (isSet : Draft → Bool)
    (set : Draft → String → Except Refusal Draft) (attached : Option String) :
    Except Refusal Progress := do
  let draft ← progress.settle
  match attached with
  | some word => return ⟨← assign isSet set draft word, none⟩
  | none => return ⟨draft, some ⟨isSet, set, none⟩⟩

/-- Reads a word that is the name of the command's subject. -/
def subject (progress : Progress) (word : String) : Except Refusal Progress :=
  if progress.draft.name.isSome then .error .unknownWord
  else do
    let draft ← progress.settle
    return ⟨{ draft with name := some word }, none⟩

/-- Reads an option after two hyphens. -/
def longOption (rules : List OptionRule) (progress : Progress) (body : List Char) :
    Except Refusal Progress :=
  let name := String.ofList (body.takeWhile (· ≠ '='))
  let attached := match body.dropWhile (· ≠ '=') with
    | [] => none
    | _ :: value => some (String.ofList value)
  match rules.find? fun rule => rule.name = name with
  | none => .error .unknownWord
  | some rule =>
    match rule.action, attached with
    | .help, none => do
      let _ ← progress.settle
      .error .help
    | .flag isSet set, none => progress.raise isSet set
    | .value isSet set, attached => progress.accept isSet set attached
    | _, some _ => .error .surplusValue

/-- Reads the options after one hyphen, one letter each up to the first that has a value. -/
def shortOptions (rules : List OptionRule) (progress : Progress) :
    List Char → Except Refusal Progress
  | [] => .ok progress
  | letter :: rest =>
    match rules.find? fun rule => rule.letter = some letter with
    | none => .error .unknownWord
    | some rule =>
      match rule.action with
      | .help => do
        let _ ← progress.settle
        .error .help
      | .flag isSet set => do shortOptions rules (← progress.raise isSet set) rest
      | .value isSet set =>
        progress.accept isSet set (match rest with
          | [] => none
          | '=' :: value => some (String.ofList value)
          | value => some (String.ofList value))

/-- Reads one word before `--`. -/
def word (rules : List OptionRule) (progress : Progress) (text : String) :
    Except Refusal Progress :=
  match text.toList with
  | '-' :: '-' :: body => progress.longOption rules body
  | '-' :: letter :: rest => progress.shortOptions rules (letter :: rest)
  | _ =>
    match progress.waiting? with
    | some pending => .ok { progress with pending := some { pending with word := some text } }
    | none => progress.subject text

/-- Reads the words of a command. -/
def words (rules : List OptionRule) (progress : Progress) : List String → Except Refusal Progress
  | [] => .ok progress
  | "--" :: rest => rest.foldlM subject progress
  | text :: rest => do words rules (← progress.word rules text) rest

end Progress

/-- What the words of a command say. -/
def readDraft (rules : List OptionRule) (words : List String) : Except Refusal Draft := do
  (← Progress.words rules ⟨.blank, none⟩ words).settle

/-! ## Requests -/

/-- What a draft says about writing pictures. -/
def Draft.common (draft : Draft) : CommonOptions where
  config := draft.config
  dir := draft.dir
  palette := draft.palette
  remap := draft.remap
  scale := draft.scale
  keepMask := draft.keepMask
  strict := draft.strict

/-- A row-major image needs its sides. -/
def readRender (words : List String) : Except Refusal Request := do
  let draft ← readDraft renderRules words
  let some name := draft.name | .error .missingWord
  let format := draft.format.getD .patch
  if format = .rowMajor ∧ (draft.width.isNone ∨ draft.height.isNone) then .error .missingWord
  else return .render name format draft.width draft.height draft.output draft.common

def readComposite (words : List String) : Except Refusal Request := do
  let draft ← readDraft compositeRules words
  return .composite draft.name draft.output draft.common

def readInspect (words : List String) : Except Refusal Request := do
  let draft ← readDraft inspectRules words
  let some name := draft.name | .error .missingWord
  return .inspect name draft.dir draft.config draft.json

/-- The names of the commands, with the one that tells about the others. -/
def commandNames : List String := ["render", "composite", "inspect", "help"]

/-- Help about a command, if there is such a command; the commands have no commands of their
own. -/
def readHelp : List String → Refusal
  | [] => .help
  | [name] => if commandNames.contains name then .help else .unknownCommand
  | _ => .unknownCommand

/-- What an option in front of the command says. -/
def readGlobalOption (body : List Char) : Refusal :=
  match body with
  | '-' :: name =>
    if name = "help".toList then .help
    else if name = "version".toList then .version
    else if name.takeWhile (· ≠ '=') = "help".toList
        ∨ name.takeWhile (· ≠ '=') = "version".toList then .surplusValue
    else .unknownWord
  | 'h' :: _ => .help
  | 'V' :: _ => .version
  | _ => .unknownWord

/-- The request that the words of a command line make, the name of the program left out. -/
def Request.ofWords : List String → Except Refusal Request
  | [] => .error .nothingSaid
  | "render" :: words => readRender words
  | "composite" :: words => readComposite words
  | "inspect" :: words => readInspect words
  | "help" :: words => .error (readHelp words)
  | ["--"] => .error .nothingSaid
  | "--" :: word :: _ =>
    .error (if commandNames.contains word then .unknownWord else .unknownCommand)
  | word :: _ =>
    match word.toList with
    | '-' :: c :: rest => .error (readGlobalOption (c :: rest))
    | _ => .error .unknownCommand

end PatchCanvas.CommandLine
