import EnumLookup.FileSystem
import EnumLookup.Manifest.Basic
import EnumLookup.Manifest.Json
import EnumLookup.Manifest.Toml
import EnumLookup.Manifest.Yaml
import EnumLookup.Fault

/-!
# Formats of manifests

A manifest is written in one of three formats, told by the extension of its file, in which case does
not matter.
-/

namespace EnumLookup.Manifest

inductive Format where
  | json
  | yaml
  | toml
  deriving DecidableEq, Repr

namespace Format

def all : List Format := [json, yaml, toml]

def text : Format → String
  | json => "json"
  | yaml => "yaml"
  | toml => "toml"

def extensions : Format → List (List Char)
  | json => ["json".toList]
  | yaml => ["yaml".toList, "yml".toList]
  | toml => ["toml".toList]

/-- The format that a path's extension tells. -/
def ofPath? (p : Path) : Option Format := do
  let ext := (← p.extension?).map Char.toLower
  all.find? (·.extensions.contains ext)

/-- The manifest of a text in the format. -/
def manifest? (f : Format) (cs : List Char) : Option Manifest :=
  match f with
  | json => (Json.document? cs).bind (ofDocument? Json.rules)
  | yaml => (Yaml.document? cs).bind (ofDocument? Yaml.rules)
  | toml => (Toml.document? cs).bind (ofDocument? Toml.rules)

end Format

/-- The manifest of a text from the named origin. -/
def parse (f : Format) (content origin : String) : Except Fault Manifest :=
  match f.manifest? content.toList with
  | some m => pure m
  | none => throw (.manifest origin .malformed)

/-- The manifest in a file. An extension that tells no format is a fault whether or not there is
such a file. -/
def load {m : Type → Type} [Monad m] (fs : FileSystem m) (p : Path) : ExceptT Fault m Manifest := do
  match Format.ofPath? p with
  | none => throw (.manifest p.text .unknownExtension)
  | some f =>
    match ← fs.read p with
    | none => throw (.manifest p.text .unreadable)
    | some content => parse f content p.text

end EnumLookup.Manifest
