import BlobCache.Proofs.Cache.Run

/-!
# Accounts of references

Whoever uses a cache can keep account of the references that are theirs to give back: one for every
entry that they added, one more for every `acquire` that succeeded, one less for every `release`
that succeeded. A `Ledger` keeps such an `Account` for every identifier. It is written from the
calls and their answers alone, without a look into the cache; what sweeps do to references is not
the user's and is not recorded.

Identifiers are used again after very many entries, so the account of an identifier is opened anew
when an entry comes under it.
-/

namespace BlobCache

/-- What a user of a cache has to do with the references to one entry. -/
structure Account where
  /-- References that came with the entry: one if the user added it. -/
  granted : Nat := 0
  /-- References taken later. -/
  taken : Nat := 0
  /-- References given back. -/
  returned : Nat := 0
  deriving DecidableEq, Repr

namespace Account

/-- The references that are left to give back. -/
def share (a : Account) : Int :=
  (a.granted : Int) + a.taken - a.returned

/-- The account after a reference was taken. -/
def take (a : Account) : Account :=
  { a with taken := a.taken + 1 }

/-- The account after a reference was given back. -/
def giveBack (a : Account) : Account :=
  { a with returned := a.returned + 1 }

@[simp]
theorem share_take (a : Account) : a.take.share = a.share + 1 := by
  simp only [share, take]
  omega

@[simp]
theorem share_giveBack (a : Account) : a.giveBack.share = a.share - 1 := by
  simp only [share, giveBack]
  omega

end Account

/-- An account for every identifier. -/
abbrev Ledger := EntryId → Account

namespace Ledger

/-- The ledger before the first call: entries that the cache loaded itself grant nothing. -/
def blank : Ledger := fun _ => {}

/-- The ledger with another account for one identifier. -/
def write (ledger : Ledger) (id : EntryId) (account : Account) : Ledger :=
  fun other => if other = id then account else ledger other

/-- The ledger after a call with this answer. -/
def record (ledger : Ledger) : Call → Except CacheError Answer → Ledger
  | .add .., .ok (.entry id) => ledger.write id { granted := 1 }
  | .acquire id, .ok _ => ledger.write id (ledger id).take
  | .release _ id, .ok _ => ledger.write id (ledger id).giveBack
  | _, _ => ledger

/-- The ledger of a run that begins at `c`. -/
def after {β : Type} [Backend β] (ledger : Ledger) (c : Cache β) : List Call → Ledger
  | [] => ledger
  | call :: calls => (ledger.record call (call.run c).result).after (call.run c).state calls

@[simp]
theorem write_self (ledger : Ledger) (id : EntryId) (account : Account) :
    ledger.write id account id = account := if_pos rfl

theorem write_of_ne (ledger : Ledger) {id other : EntryId} (h : other ≠ id) (account : Account) :
    ledger.write id account other = ledger other := if_neg h

end Ledger

end BlobCache
