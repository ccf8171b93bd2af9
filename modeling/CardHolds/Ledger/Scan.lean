import CardHolds.Ledger.Basic

/-!
# Scans over all accounts

A scan delivers the accounts in the order of their names, one page at a time, and reads a page only
when the one before it has been delivered.  Between two pages the ledger may change; `Scan.run` reads
each page from a ledger of its own.  A page that is not full is the last one, and a page that cannot
be read is delivered as a single error, after which the scan has ended.
-/

namespace CardHolds

/-- The position of a scan. -/
structure Scan where
  pageSize : Nat
  /-- The last account delivered. -/
  after : Option AccountId := none
  ended : Bool := false
deriving DecidableEq

namespace Scan

/-- A scan before its first page; a page holds at least one account. -/
def start (pageSize : Nat) : Scan where
  pageSize := max 1 pageSize

/-- Delivers the next page of a ledger. -/
def nextPage (scan : Scan) (ledger : Ledger) : List (Except LedgerError Account) × Scan :=
  if scan.ended then
    ([], scan)
  else
    match ledger.page scan.after scan.pageSize with
    | .error e => ([.error e], { scan with ended := true })
    | .ok accounts =>
      (accounts.map .ok,
        { scan with
          after := accounts.getLast?.map Account.id
          ended := decide (accounts.length < scan.pageSize) || accounts.isEmpty })

/-- Delivers one page of each ledger in turn. -/
def run (scan : Scan) : List Ledger → List (Except LedgerError Account) × Scan
  | [] => ([], scan)
  | ledger :: rest =>
    let (page, scan') := scan.nextPage ledger
    let (pages, scan'') := scan'.run rest
    (page ++ pages, scan'')

/-- Everything that a scan of an unchanging ledger delivers.  Every page but the last holds an
account, so there is at most one page more than accounts. -/
def complete (ledger : Ledger) (pageSize : Nat) : List (Except LedgerError Account) × Scan :=
  (start pageSize).run (List.replicate (ledger.store.accounts.rows.length + 1) ledger)

/-- What a reader takes from a scan. -/
structure Reading where
  accounts : List Account
  error : Option LedgerError
  /-- Whether the reader went on to the end of the scan. -/
  ended : Bool
deriving DecidableEq

/-- Reads an unchanging ledger to the end of the scan, or until the reader has as many accounts as it
wants.  A reader that has them all asks for nothing more and learns neither of an error nor of the
end. -/
def read (ledger : Ledger) (pageSize : Nat) (wanted : Option Nat) : Reading :=
  let items := (complete ledger pageSize).1
  let accounts := items.filterMap Except.toOption
  if wanted.any fun n => decide (n ≤ accounts.length) then
    { accounts := accounts.take (wanted.getD 0), error := none, ended := false }
  else
    { accounts := accounts
      error := items.findSome? fun
        | .ok _ => none
        | .error e => some e
      ended := true }

end Scan

end CardHolds
