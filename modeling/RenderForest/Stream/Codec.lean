import RenderForest.Json.Decode
import RenderForest.Source.Env
import RenderForest.Stream.Token
/-!
# Codec — tokens and surroundings as JSON

Tokens come and go as JSON objects; every field may be missing when they are read, and all are
written.  This file defines:

* `Token.decoder` and `Token.toJson`, for one token with the tokens inside it;
* `Token.readStream`, which reads the text of a token stream;
* `Env.decoder`, for the surroundings of a pass.
-/

namespace RenderForest

open Json

/-! ## Reading -/

def Nesting.decoder : Decoder Nesting := fun levels d =>
  match Decoder.bounded (-128) 127 "i8" levels d with
  | .error e => .error e
  | .ok n =>
    match Nesting.ofInt? n with
    | some mark => .ok mark
    | none => .error (.refused (Nesting.refusal n))

/-- A map from names to texts; of a repeated name the last text counts. -/
def textCatalog : Decoder (Catalog String) := fun levels d =>
  match d with
  | .object fields stop => enter levels fun levels =>
    match Decoder.eachItem (fun (n, d) => (Decoder.string levels d).map fun s => (n, s)) fields with
    | .error e => .error e
    | .ok entries =>
      match stop with
      | some e => .error e
      | none => .ok (Catalog.ofEntries entries)
  | d => .error (d.wrongType "a map")

/-- Reads the fields of extra data: the attributes, and everything else as it is. -/
def metaFields (levels : Nat) :
    Option (Catalog String) → Fields → List (String × Draft) → Except Json.Error TokenMeta
  | attrs, extra, [] => .ok { attrs := attrs.getD [], extra := extra }
  | attrs, extra, (n, d) :: rest =>
    if n == "attrs" then
      if attrs.isSome then .error (.repeatedField n)
      else
        match textCatalog levels d with
        | .error e => .error e
        | .ok c => metaFields levels (some c) extra rest
    else
      match Decoder.value levels d with
      | .error e => .error e
      | .ok v => metaFields levels attrs (Catalog.insert n v extra) rest

def TokenMeta.decoder : Decoder TokenMeta := fun levels d =>
  match d with
  | .object fields stop => enter levels fun levels =>
    match metaFields levels none [] fields with
    | .error e => .error e
    | .ok data =>
      match stop with
      | some e => .error e
      | none => .ok data
  | d => .error (d.wrongType "struct TokenMeta")

/-- The fields of a token in the order of their declaration, given the decoder for the tokens
inside. -/
def Token.fields (inner : Decoder Token) : List (Decoder.Field Token) :=
  [ .of "type" .string fun v t => { t with kind := v },
    .of "tag" .string fun v t => { t with tag := v },
    .of "attrs" (.orDefault (.list (.pair .string .string))) fun v t => { t with attrs := v },
    .of "map" (.nullable (.pair .natural .natural)) fun v t => { t with map := v },
    .of "nesting" Nesting.decoder fun v t => { t with nesting := v },
    .of "level" (.bounded (-2147483648) 2147483647 "i32") fun v t => { t with level := v },
    .of "children" (.nullable (.list inner)) fun v t => { t with children := v },
    .of "content" (.orDefault .string) fun v t => { t with content := v },
    .of "markup" (.orDefault .string) fun v t => { t with markup := v },
    .of "info" (.orDefault .string) fun v t => { t with info := v },
    .of "meta" (.nullable TokenMeta.decoder) fun v t => { t with details := v },
    .of "block" .bool fun v t => { t with block := v },
    .of "hidden" .bool fun v t => { t with hidden := v } ]

/-- The decoder of a token; the first number bounds how deep tokens stand in tokens. -/
def Token.decoderWithin : Nat → Decoder Token
  | 0 => fun _ _ => .error .tooDeep
  | depth + 1 => .record "Token" (Token.fields (Token.decoderWithin depth)) {}

def Token.decoder : Decoder Token :=
  Token.decoderWithin levelLimit

def Token.readStream (text : String) : Except Json.Error (List Token) :=
  decodeText (.list Token.decoder) text

def Token.streamFault (e : Json.Error) : String :=
  "invalid token stream: " ++ e.message

/-! ## Writing -/

def pairsToJson (pairs : List (String × String)) : Value :=
  .array (pairs.map fun (n, v) => .array [.string n, .string v])

def catalogToJson (c : Catalog String) : Value :=
  .object (c.map fun (n, v) => (n, .string v))

/-- Extra data, with the attributes first. -/
def TokenMeta.toJson (m : TokenMeta) : Value :=
  .object (("attrs", catalogToJson m.attrs) :: m.extra)

mutual

def Token.toJson : Token → Value
  | ⟨kind, tag, attrs, map, nesting, level, children, content, markup, info, data, block, hidden⟩ =>
    .object [
      ("type", .string kind),
      ("tag", .string tag),
      ("attrs", pairsToJson attrs),
      ("map", match map with
        | some (a, b) => .array [.ofNat a, .ofNat b]
        | none => .null),
      ("nesting", .number (.int nesting.toInt)),
      ("level", .number (.int level)),
      ("children", Token.childrenToJson children),
      ("content", .string content),
      ("markup", .string markup),
      ("info", .string info),
      ("meta", match data with
        | some m => m.toJson
        | none => .null),
      ("block", .bool block),
      ("hidden", .bool hidden) ]

def Token.childrenToJson : Option (List Token) → Value
  | none => .null
  | some ts => .array (Token.listToJson ts)

def Token.listToJson : List Token → List Value
  | [] => []
  | t :: rest => t.toJson :: Token.listToJson rest

end

/-! ## Surroundings -/

def MacroLine.decoder : Decoder MacroLine :=
  .record "MacroLine"
    [ .of "matchPos" .natural fun v m => { m with matchPos := v },
      .of "lineOffset" .signed fun v m => { m with lineOffset := v },
      .of "posOffset" .signed fun v m => { m with posOffset := v },
      .of "currentPosOffset" .signed fun v m => { m with currentPosOffset := v } ]
    {}

def Env.decoder : Decoder Env :=
  .record "RenderEnv"
    [ .of "safeMode" .bool fun v e => { e with safeMode := v },
      .of "macroLines" (.nullable (.list MacroLine.decoder)) fun v e =>
        { e with macroLines := v },
      .of "bMarks" (.nullable (.list .natural)) fun v e => { e with lineStarts := v },
      .of "eMarks" (.nullable (.list .natural)) fun v e => { e with lineEnds := v } ]
    {}

end RenderForest
