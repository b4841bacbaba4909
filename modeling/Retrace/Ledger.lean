import Retrace.Text.Order

/-!
# The ledger

Balances of accounts. An account belongs to a scope, and the ledger lists the accounts in order.
-/

namespace Retrace

/-- An account: the name of its scope and its own name. -/
structure Account where
  scope : String
  name : String
  deriving DecidableEq, Inhabited

namespace Account

def before (left right : Account) : Bool :=
  if left.scope = right.scope then Text.before left.name right.name
  else Text.before left.scope right.scope

theorem isKeyOrder_before : IsKeyOrder before where
  irrefl account := by simp [before, Text.isKeyOrder_before.irrefl]
  trans first second third hfirst hsecond := by
    simp only [before] at hfirst hsecond ⊢
    by_cases hone : first.scope = second.scope
    · by_cases htwo : second.scope = third.scope
      · rw [if_pos hone] at hfirst
        rw [if_pos htwo] at hsecond
        rw [if_pos (hone.trans htwo)]
        exact Text.isKeyOrder_before.trans _ _ _ hfirst hsecond
      · rw [if_neg htwo] at hsecond
        rw [hone, if_neg htwo]
        exact hsecond
    · rw [if_neg hone] at hfirst
      by_cases htwo : second.scope = third.scope
      · rw [← htwo, if_neg hone]
        exact hfirst
      · rw [if_neg htwo] at hsecond
        have hthree := Text.isKeyOrder_before.trans _ _ _ hfirst hsecond
        have hne : first.scope ≠ third.scope := fun heq => by
          rw [heq, Text.isKeyOrder_before.irrefl] at hthree
          cases hthree
        rw [if_neg hne]
        exact hthree
  eq_of_neither left right hleft hright := by
    simp only [before] at hleft hright
    by_cases hscope : left.scope = right.scope
    · rw [if_pos hscope] at hleft
      rw [if_pos hscope.symm] at hright
      have hname := Text.isKeyOrder_before.eq_of_neither _ _ hleft hright
      cases left
      cases right
      simp_all
    · rw [if_neg hscope] at hleft
      rw [if_neg (Ne.symm hscope)] at hright
      exact absurd (Text.isKeyOrder_before.eq_of_neither _ _ hleft hright) hscope

def shown (account : Account) : String := s!"{account.scope} {account.name}"

end Account

/-- The balances of accounts, in the order of the accounts. -/
structure Ledger where
  balances : List (Account × Int64)
  sorted : Ordered.IsSorted Account.before balances
  deriving DecidableEq

namespace Ledger

def empty : Ledger := ⟨[], List.Pairwise.nil⟩

def balance? (ledger : Ledger) (account : Account) : Option Int64 := ledger.balances.lookup account

/-- Opens an account or changes its balance, or takes the account away. -/
def put (ledger : Ledger) (account : Account) : Option Int64 → Ledger
  | some value =>
    ⟨Ordered.insert Account.before account value ledger.balances,
      Ordered.isSorted_insert Account.isKeyOrder_before account value ledger.sorted⟩
  | none => ⟨Ordered.erase account ledger.balances, Ordered.isSorted_erase account ledger.sorted⟩

/-- The balances as they are shown. -/
def shown (ledger : Ledger) : List String :=
  ledger.balances.map fun (account, balance) => s!"{account.shown} = {balance.toInt}"

end Ledger

end Retrace
