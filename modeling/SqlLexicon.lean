import SqlLexicon.TransactSql.Family
import SqlLexicon.Vocabulary.Token
import SqlLexicon.Proofs.Catalog.Places
import SqlLexicon.Proofs.Folding.Row
import SqlLexicon.Proofs.Resolver.Meaning
import SqlLexicon.Proofs.Resolver.Soundness
import SqlLexicon.Proofs.Resolver.Request
import SqlLexicon.Proofs.Resolver.History
import SqlLexicon.Proofs.Written.Line
import SqlLexicon.Proofs.Written.Folding
import SqlLexicon.Proofs.Written.Acceptance
import SqlLexicon.Proofs.Registration.Entered
import SqlLexicon.Proofs.Written.Meaning
import SqlLexicon.Proofs.Lexicon.Lookup
import SqlLexicon.Proofs.Registration.Ambiguity
import SqlLexicon.Proofs.Registration.Checks
import SqlLexicon.Proofs.Registration.Run
import SqlLexicon.Proofs.Catalog.Locality
import SqlLexicon.Proofs.Written.Locality
import SqlLexicon.Proofs.Resolver.Turn
import SqlLexicon.Proofs.Resolver.Ledger
import SqlLexicon.Proofs.Resolver.Sharing
import SqlLexicon.Proofs.Resolver.Twin
import SqlLexicon.Proofs.Resolver.Journal
import SqlLexicon.Proofs.Resolver.Eager
import SqlLexicon.Proofs.Folding.Totals
import SqlLexicon.Proofs.Folding.Balance
import SqlLexicon.Proofs.Folding.Absences
import SqlLexicon.Proofs.Resolver.Inheritance
import SqlLexicon.Proofs.Resolver.Reports
import SqlLexicon.Proofs.Written.Joined
import SqlLexicon.Proofs.Resolver.Joined
import SqlLexicon.Proofs.Lexicon.Equality
import SqlLexicon.Proofs.Registration.Index
import SqlLexicon.Proofs.Resolver.Telling
import SqlLexicon.Proofs.Resolver.Conservation
import SqlLexicon.Proofs.Resolver.Course
import SqlLexicon.Proofs.Resolver.Warnings
import SqlLexicon.Proofs.Written.Respelling
import SqlLexicon.Proofs.Written.Attribution
import SqlLexicon.Proofs.Folding.Applied
import SqlLexicon.Proofs.Folding.Commuting
import SqlLexicon.Proofs.Registration.Report
import SqlLexicon.Proofs.Written.Honoured
import SqlLexicon.Proofs.TransactSql.Tables
import SqlLexicon.Proofs.TransactSql.Lookups
import SqlLexicon.Proofs.Resolver.Cycles
import SqlLexicon.Proofs.Folding.Reckoning
import SqlLexicon.Proofs.Written.Repetition
import SqlLexicon.Proofs.Folding.Disjoint
import SqlLexicon.Proofs.Written.Relisting
import SqlLexicon.Proofs.Registration.Batch
import SqlLexicon.Proofs.TransactSql.Registering
import SqlLexicon.Proofs.Folding.Sweep
