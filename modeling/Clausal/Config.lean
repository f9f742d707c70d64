import Clausal.Datum.Arithmetic
import Clausal.Datum.Tree
import Clausal.Files
import Clausal.Yaml.Reader
import Clausal.Yaml.Writer

/-!
The configuration: a map of settings that starts from defaults. Settings are looked up and set by keys,
whole trees are merged in, and the configuration is saved as a document and loaded over the defaults.
-/

set_option autoImplicit false

namespace Clausal

inductive ConfigFault where
  /-- The node at a key cannot be set. -/
  | set (fault : Datum.SetFault)
  /-- A list and a map cannot be merged. -/
  | unmergeable
  /-- There is nothing to merge. -/
  | nothing
  /-- What is to be merged is no tree. -/
  | noTree
  /-- No file stands at the path. -/
  | missing (path : String)
  | file (fault : FileFault)
  | encoding (fault : Text.Utf8.Fault)
  | document (fault : Yaml.Fault)
  /-- The document holds a scalar of the given type. -/
  | scalarDocument (typeName : String)
  /-- The document holds quoted text that stands for a scalar of the given type. -/
  | scalarText (typeName : String)

namespace ConfigFault

def kind : ConfigFault → String
  | .set .noStep => "IndexError"
  | .set .incompatible => "ConfigTypeError"
  | .set .outOfRange => "ConfigIndexError"
  | .set (.notAnIndex _) => "TypeError"
  | .set (.badIndex _) => "ValueError"
  | .unmergeable => "TypeError"
  | .nothing => "ValueError"
  | .noTree => "ValueError"
  | .missing _ => "FileNotFoundError"
  | .file fault => fault.cause.kind
  | .encoding _ => "UnicodeDecodeError"
  | .document .unreadable => "ReaderError"
  | .document .badToken => "ScannerError"
  | .document .unexpected => "ParserError"
  | .document .repeatedKey => "ConstructorError"
  | .scalarDocument _ => "OSError"
  | .scalarText _ => "ValidationError"

/-- The text of a fault. Faults of documents and of the shape of trees go by their kind alone. -/
def message? : ConfigFault → Option String
  | .set .noStep => some "list index out of range"
  | .set .incompatible => none
  | .set .outOfRange => none
  | .set (.notAnIndex step) => some ("Index '" ++ step ++ "' (str) is not an int")
  | .set (.badIndex fault) => some fault.message
  | .unmergeable => some "Cannot merge incompatible container types"
  | .nothing => some "Cannot merge with a None config"
  | .noTree =>
      some
        ("Invalid input. Supports one of [dict,list,tuple,DictConfig,ListConfig,TupleConfig,dataclass,"
          ++ "dataclass instance,attr class,attr class instance]")
  | .missing path => some ("Configuration file not found: " ++ path)
  | .file fault => some fault.message
  | .encoding fault => some fault.message
  | .document _ => none
  | .scalarDocument typeName => some ("Invalid loaded object type: " ++ typeName)
  | .scalarText _ => none

end ConfigFault

/-- A configuration: the entries of a map. -/
structure Config where
  entries : List (String × Datum)

namespace Config

/-- The format of log lines unless another one is configured. -/
def defaultFormat : String := "%(asctime)s - %(name)s - %(levelname)s - %(message)s"

def default : Config :=
  ⟨[
    ("solver", .map
      [("name", .text "auto"), ("random_walk", .map [("budget_factor", .int 100), ("seed", .null)])]),
    ("logging", .map
      [("level", .text "INFO"), ("file", .null), ("format", .text defaultFormat)]),
    ("output", .map [("log_dir", .null)])
  ]⟩

def tree (config : Config) : Datum := .map config.entries

/-- The setting at a key; a setting that is null is there. -/
def get? (config : Config) (key : String) : Option Datum := config.tree.lookup key

/-- The setting at a key, or the given value if there is none. -/
def getD (config : Config) (key : String) (fallback : Datum) : Datum :=
  (config.get? key).getD fallback

def has (config : Config) (key : String) : Bool := (config.get? key).any fun value => !value.isNull

/-- Sets the setting at a key; what was changed before a fault stays changed. -/
def set (config : Config) (key : String) (value : Datum) : Config × Option ConfigFault :=
  let change := config.tree.set key value
  (⟨change.tree.entries⟩, change.fault.map .set)

/-- Merges a tree over the configuration. On a fault nothing changes. -/
def update (config : Config) : Datum → Except ConfigFault Config
  | .map entries =>
      let merged := Datum.mergeEntries config.entries entries
      if merged.complete then .ok ⟨merged.result⟩ else .error .unmergeable
  | .list _ => .error .unmergeable
  | .null => .error .nothing
  | _ => .error .noTree

/-- The tree that quoted text stands for: it is read as a document of its own, and text that stays text
is the only key of a map. -/
def treeOfText (text : String) : Except ConfigFault Datum :=
  match Yaml.read text with
  | .error fault => .error (.document fault)
  | .ok .null => .ok (.map [])
  | .ok (.text key) => .ok (.map [(key, .null)])
  | .ok (.map entries) => .ok (.map entries)
  | .ok (.list items) => .ok (.list items)
  | .ok value => .error (.scalarText value.typeName)

/-- The tree that a document holds. A document without content holds the empty map. -/
def treeOfDocument (text : String) : Except ConfigFault Datum :=
  match Yaml.read text with
  | .error fault => .error (.document fault)
  | .ok .null => .ok (.map [])
  | .ok (.text text) => treeOfText text
  | .ok (.map entries) => .ok (.map entries)
  | .ok (.list items) => .ok (.list items)
  | .ok value => .error (.scalarDocument value.typeName)

def load (files : Files) (path : String) : Except ConfigFault Config :=
  if !files.contains path then .error (.missing path)
  else
    match files.read path with
    | .error fault => .error (.file { fault with path := files.absolute path })
    | .ok bytes =>
        match Text.Utf8.decode bytes with
        | .error fault => .error (.encoding fault)
        | .ok text => do default.update (← treeOfDocument text)

def document (config : Config) : String := Yaml.write config.entries

/-- Saves the configuration, making the directories above the file. -/
def save (config : Config) (files : Files) (path : String) : Except FileFault Files := do
  let prepared ← files.makeDirectoryOf path
  prepared.save (files.absolute path) config.document

end Config

end Clausal
