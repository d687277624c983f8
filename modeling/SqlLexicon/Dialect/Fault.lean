import SqlLexicon.Patch.Step
import SqlLexicon.Text.Quoted

/-! What can be wrong with a dialect: faults found when it is registered, and faults found when it is resolved. A fault
holds its causes; its wording, code and advice are functions of it. -/
namespace SqlLexicon

inductive Fault where
  | ambiguousPatch (dialect patch word : String) (first second : Step)
  /- A spelling is empty or holds white space; it is kept as written. -/
  | invalidWord (dialect patch : String) (step : Step) (spelling : String)
  | unknownWord (dialect patch : String) (step : Step) (word : String)
  | unknownParent (dialect parent : String)
  | cyclicDialect (dialect : String) (chain : List String)
  | duplicateDialect (dialect : String)
  | unknownDialect (dialect : String)
  deriving DecidableEq, Repr

namespace Fault

def dialect : Fault → String
  | ambiguousPatch dialect .. | invalidWord dialect .. | unknownWord dialect .. | unknownParent dialect _
  | cyclicDialect dialect _ | duplicateDialect dialect | unknownDialect dialect => dialect

def isRegistration : Fault → Bool
  | ambiguousPatch .. | invalidWord .. | duplicateDialect _ => true
  | _ => false

def message : Fault → String
  | ambiguousPatch dialect patch word first second =>
    "dialect `" ++ dialect ++ "`: patch `" ++ patch ++ "` lists `" ++ word ++ "` in both " ++ first.name ++ " and " ++
      second.name
  | invalidWord dialect patch step spelling =>
    "dialect `" ++ dialect ++ "`: patch `" ++ patch ++ "` has an invalid word " ++ Text.quoted spelling ++ " in " ++
      step.name
  | unknownWord dialect patch step word =>
    "dialect `" ++ dialect ++ "`: patch `" ++ patch ++ "` cannot " ++ step.name ++ " `" ++ word ++
      "`, which is not in the inherited vocabulary"
  | unknownParent dialect parent => "dialect `" ++ dialect ++ "` names unknown parent dialect `" ++ parent ++ "`"
  | cyclicDialect dialect chain => "dialect `" ++ dialect ++ "` has cyclic ancestry: " ++ " -> ".intercalate chain
  | duplicateDialect dialect => "dialect `" ++ dialect ++ "` is already registered"
  | unknownDialect dialect => "unknown dialect `" ++ dialect ++ "`"

def code : Fault → String
  | ambiguousPatch .. => "sqlvocab::ambiguous_patch"
  | invalidWord .. => "sqlvocab::invalid_word"
  | unknownWord .. => "sqlvocab::unknown_word"
  | unknownParent .. => "sqlvocab::unknown_parent"
  | cyclicDialect .. => "sqlvocab::cyclic_dialect"
  | duplicateDialect _ => "sqlvocab::duplicate_dialect"
  | unknownDialect _ => "sqlvocab::unknown_dialect"

def help? : Fault → Option String
  | ambiguousPatch .. =>
    some "a reserving add-list cannot share words with another add-list or with `remove` in the same patch"
  | invalidWord .. => some "keywords must be non-empty and must not contain whitespace"
  | unknownWord .. => some "`redesignate` only moves inherited words; use an add-list to introduce a new word"
  | unknownParent .. => some "register the parent dialect before building the registry"
  | _ => none

end Fault

end SqlLexicon
