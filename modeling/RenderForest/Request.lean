import RenderForest.Page.Theme
/-!
# Request — what a command line asks for

A command line holds flags, options with a value, and at most one input; each may be given once.
This file defines:

* `Format` and `Request`;
* `Request.Reading`, what a command line turns out to be;
* `Request.read`, which reads the words of a command line one after another.
-/

namespace RenderForest

inductive Format where
  | html
  | json
  | page
  deriving DecidableEq, Repr

def Format.ofName? : String → Option Format
  | "html" => some .html
  | "json" => some .json
  | "page" => some .page
  | _ => none

structure Request where
  input : Option String := none
  tokens : Bool := false
  format : Option Format := none
  safe : Bool := false
  sanitized : Bool := false
  breaks : Bool := false
  langClass : Option String := none
  highlight : Bool := false
  theme : Option Theme := none
  config : Option String := none
  deriving DecidableEq, Repr

namespace Request

/-! ## Words -/

inductive Reading where
  | request (r : Request)
  | help
  | version
  | misuse
  deriving DecidableEq, Repr

/-- Sets a flag that is not set yet. -/
def setFlag? (r : Request) (name : String) : Option Request :=
  match name with
  | "tokens" => if r.tokens then none else some { r with tokens := true }
  | "safe" => if r.safe then none else some { r with safe := true }
  | "sanitized" => if r.sanitized then none else some { r with sanitized := true }
  | "breaks" => if r.breaks then none else some { r with breaks := true }
  | "highlight" => if r.highlight then none else some { r with highlight := true }
  | _ => none

def optionNames : List String := ["format", "lang-prefix", "theme", "config"]

def themeOf? (name : String) : Option Theme :=
  match Theme.parse name with
  | .ok t => some t
  | .error _ => none

def setOption? (r : Request) (name value : String) : Option Request :=
  match name with
  | "format" =>
    if r.format.isSome then none
    else (Format.ofName? value).map fun f => { r with format := some f }
  | "lang-prefix" => if r.langClass.isSome then none else some { r with langClass := some value }
  | "theme" =>
    if r.theme.isSome then none else (themeOf? value).map fun t => { r with theme := some t }
  | "config" =>
    if r.config.isSome || value.isEmpty then none else some { r with config := some value }
  | _ => none

def setInput? (r : Request) (path : String) : Option Request :=
  if r.input.isSome || path.isEmpty then none else some { r with input := some path }

/-- Whether a word is no value: it begins with a hyphen and is not the hyphen alone. -/
def isSwitch (word : String) : Bool :=
  match word.toList with
  | '-' :: _ :: _ => true
  | _ => false

/-- The name in a word that begins with two hyphens, and the value behind its equals sign. -/
def splitWord (body : List Char) : String × Option String :=
  let name := body.takeWhile (· != '=')
  match body.drop name.length with
  | [] => (String.ofList name, none)
  | _ :: value => (String.ofList name, some (String.ofList value))

/-! ## Command lines -/

/-- The words behind two hyphens, which are all inputs. -/
def readInputs (r : Request) : List String → Reading
  | [] => .request r
  | word :: rest =>
    match r.setInput? word with
    | some r => r.readInputs rest
    | none => .misuse

def read (r : Request) : List String → Reading
  | [] => .request r
  | word :: rest =>
    match word.toList with
    | ['-', '-'] => r.readInputs rest
    | '-' :: '-' :: body =>
      let (name, value) := splitWord body
      if optionNames.contains name then
        match value, rest with
        | some value, rest =>
          match r.setOption? name value with
          | some r => r.read rest
          | none => .misuse
        | none, value :: rest =>
          if isSwitch value then .misuse
          else
            match r.setOption? name value with
            | some r => r.read rest
            | none => .misuse
        | none, [] => .misuse
      else if value.isSome then .misuse
      else if name == "help" then .help
      else if name == "version" then .version
      else
        match r.setFlag? name with
        | some r => r.read rest
        | none => .misuse
    | '-' :: 'h' :: _ => .help
    | '-' :: 'V' :: _ => .version
    | '-' :: _ :: _ => .misuse
    | _ =>
      match r.setInput? word with
      | some r => r.read rest
      | none => .misuse

end Request
end RenderForest
