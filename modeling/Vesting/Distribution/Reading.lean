/-
# Reading distributions

Nodes and distributions are read from fields like records. The siblings of a proof are
given in their `0x` form or as bytes and may have any length; the root given as text has
to be a hash. Whether the parts of a distribution fit together is not looked at.
-/

import Vesting.Distribution
import Vesting.Record.Reading

namespace Vesting

/-- Turn the texts of a proof into bytes, up to the first that has no `0x` form. -/
def decodeSiblings : List Value → Except Hex.Fault (List Value)
  | [] => .ok []
  | .text s :: rest =>
    match ofHex s with
    | .error fault => .error fault
    | .ok b => (decodeSiblings rest).map (.bytes b :: ·)
  | v :: rest => (decodeSiblings rest).map (v :: ·)

namespace Schema

def bytes (v : Value) : Reading Bytes :=
  match v with
  | .bytes b => .done b
  | _ => .issue .notBytes v

/-- A proof: a list of siblings, or nothing. -/
def siblings (origin : Origin) (v : Value) : Reading (Option (List Bytes)) :=
  match v with
  | .null => .done none
  | .list items =>
    match decodeSiblings items with
    | .error fault => .issue (.refused fault.message) v
    | .ok decoded => (Reading.items bytes 0 decoded).map some
  | _ => .issue (.notTuple origin) v

end Schema

namespace Node

/-- The name of a node in messages about its fields. -/
def model : String := "TreeNode"

def read (origin : Origin) (fields : Fields) : Reading Node :=
  Node.mk <$> Record.readFields fields
    <*> Schema.optional fields "proof" none (Schema.siblings origin)
    <* Schema.only fields (Record.columns ++ ["proof"])

def readValue (origin : Origin) (v : Value) : Reading Node :=
  (Schema.fieldsOf model origin v).andThen (read origin)

/-- Read a node, or reject its fields. -/
def ofFields (fields : Fields) : Except Rejection Node := (read .values fields).toExcept model

def ofJson (text : String) : Except Rejection Node :=
  match Value.ofJson? text with
  | none => .error ⟨model, [⟨.notJson, [], .text text⟩]⟩
  | some v => (readValue .jsonText v).toExcept model

end Node

namespace Distribution

/-- The name of a distribution in messages about its fields. -/
def model : String := "VestingMerkleTree"

def readNodes (origin : Origin) (v : Value) : Reading (List Node) :=
  match v with
  | .list items => Reading.items (Node.readValue origin) 0 items
  | _ => .issue (.notList origin) v

def read (origin : Origin) (fields : Fields) : Reading Distribution :=
  Distribution.mk <$> Schema.required fields "merkle_root" (Schema.bytesFrom hashOfHex)
    <*> Schema.optional fields "version" 0 Schema.word
    <*> Schema.required fields "max_claim_amount" Schema.word
    <*> Schema.required fields "max_escrow" Schema.word
    <*> Schema.optional fields "tree_nodes" [] (readNodes origin)
    <* Schema.only fields ["merkle_root", "version", "max_claim_amount", "max_escrow", "tree_nodes"]

/-- Read a distribution, or reject its fields. -/
def ofFields (fields : Fields) : Except Rejection Distribution :=
  (read .values fields).toExcept model

def ofJson (text : String) : Except Rejection Distribution :=
  match Value.ofJson? text with
  | none => .error ⟨model, [⟨.notJson, [], .text text⟩]⟩
  | some v => ((Schema.fieldsOf model .jsonText v).andThen (read .jsonText)).toExcept model

/-- The refusal of a file whose text is not that of a distribution. -/
def malformed (path : String) (r : Rejection) : Refusal :=
  .unreadableFile s!"Malformed tree file: {path}" (some path)
    [("errors", .list (r.issues.map Value.ofIssue))]

/-- The refusal of a file that does not exist. -/
def notFound (path : String) : Refusal :=
  .unreadableFile s!"Tree file not found: {path}" (some path) []

/-- The distribution that the file at a path holds. -/
def ofFile (path : String) (content : Bytes) : Except Failure Distribution :=
  match Text.ofUtf8 content with
  | .error fault => .error (.notText fault)
  | .ok text => (ofJson text).mapError fun r => .refused (malformed path r)

end Distribution

end Vesting
