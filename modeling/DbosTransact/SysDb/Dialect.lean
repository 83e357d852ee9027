import DbosTransact.Models.Errors
import Mathlib.Data.List.Infix

/-!
# How the database dialects classify errors

`retryable` is the condition chain of `Retry` when a call site opts into the transaction conflicts of its
dialect.
-/

namespace Dbos

/-- The dialects that classify errors in their own way; CockroachDB follows PostgreSQL. -/
inductive Dialect
  | postgres
  | sqlite
  deriving DecidableEq, Repr

namespace Dialect

/-- `pgErrCode`: the SQLSTATE of the first `PgError`, or the empty string. -/
def pgErrCode (e : GoError) : String :=
  (e.first? fun
    | .postgres code _ => some code
    | _ => none).getD ""

/-- `sqliteCode`: the extended result code, if a SQLite driver raised the error. -/
def sqliteCode (e : GoError) : Option Nat :=
  e.first? fun
    | .sqlite code _ => some code
    | _ => none

def connectionCodes : List String :=
  ["08000", "08003", "08006", "08001", "08004", "57P01", "57P02", "57P03"]

/-- `strings.Contains(err.Error(), "conn closed")`. -/
def saysConnClosed (e : GoError) : Bool :=
  decide ("conn closed".toList <:+: e.errorText.toList)

def isUniqueViolation : Dialect → GoError → Bool
  | .postgres, e => pgErrCode e = "23505"
  | .sqlite, e => sqliteCode e = some 2067 || sqliteCode e = some 1555

def isRetryable : Dialect → GoError → Bool
  | .postgres, e =>
    -- a deadline satisfies net.Error, but is a semantic outcome and not a transient failure
    if e.isDeadlineExceeded || e.isCanceled then false
    else
      e.any (· = .txClosed) || connectionCodes.contains (pgErrCode e) ||
      e.any (fun | .connect _ => true | _ => false) ||
      e.any (· = .eof) || saysConnClosed e ||
      e.any (fun | .net _ => true | _ => false)
  | .sqlite, e =>
    match sqliteCode e with
    | some code => code % 256 = 5 || code % 256 = 6
    | none => false

/-- `IsRetryableTransaction`: serialization failures and deadlocks, or a busy SQLite writer. -/
def isRetryableTransaction : Dialect → GoError → Bool
  | .postgres, e => pgErrCode e = "40001" || pgErrCode e = "40P01"
  | .sqlite, e => isRetryable .sqlite e

/-- The condition chain of `Retry` with `WithRetryCondition(d.IsRetryableTransaction)`. -/
def retryable (d : Dialect) (e : GoError) : Bool :=
  isRetryable .postgres e || isRetryable .sqlite e || d.isRetryableTransaction e

end Dialect

/-- The unique violation that PostgreSQL raises for a constraint. -/
def uniqueViolation (constraint : String) : GoError :=
  .leaf (.postgres "23505" s!"duplicate key value violates unique constraint \"{constraint}\"")

end Dbos
