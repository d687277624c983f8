import SqlLexicon.Resolver
import SqlLexicon.TransactSql.Keywords

/-! The built-in dialects: Transact-SQL, a root, and Azure Synapse Analytics, which derives from it. -/
namespace SqlLexicon.TransactSql

/- The tables of Transact-SQL. Words reserved in the reference alone stand in two tables, and the unreserved listing
wins. -/
def tables : Tables String :=
  ⟨reservedWords ++ documentedWords, unreservedWords, futureReservedWords⟩

def transactSql : Dialect := .root "tsql" tables

def synapse : Dialect :=
  (Dialect.derived "synapse" transactSql.name).withPatch
    (Patch.adding { name := "synapse-reserved" } .reserved synapseReservedWords)

def family : List Dialect := [transactSql, synapse]

def register (draft : Draft) : Logged (Draft × Except Fault Unit) := draft.registerAll family

def resolver (options : Options) : Logged (Except Fault Resolver) := do
  let turn ← register { options }
  match turn.2 with
  | .error fault => pure (.error fault)
  | .ok _ => do return .ok (← turn.1.finish)

end SqlLexicon.TransactSql
