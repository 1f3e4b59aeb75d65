import SockShop.Lemmas.Replies

/-!
# Bad replies

A reply that cannot be read ends the script: the services and rounds that would come after it are not tried. So bad replies stay
confined to their service and round exactly when every reply of every round that is reached does no harm (`confined_iff`): it is
no answer or a proper health list, or at least one whose reading raises nothing and leaves the service other than "OK".
-/

namespace SockShop.Healthcheck

/-- Bad replies stay confined to their service and round exactly when every reply that a round that is reached may come to does no
harm. (A negative `--delay` ends the script before it asks anything, if there is a round to begin.) -/
theorem confined_iff (c : Settings) (net : Net) :
    c.Confined net ↔ (1 ≤ c.retry → c.PauseOk) ∧
      ∀ i visited service, c.Reached net i → c.Asks visited service → c.Harmless net i visited service := by
  by_cases hr : 1 ≤ c.retry
  · rw [forall_prop_of_true hr]
    by_cases hp : c.PauseOk
    · rw [and_iff_right hp]
      exact confined_iff_of_pauseOk hp
    · exact iff_of_false (not_confined_of_not_pauseOk hp hr) fun h => hp h.1
  · refine iff_of_true (confined_of_retry_le_zero net (by omega)) ⟨fun h => absurd h hr, ?_⟩
    intro i _ _ hreached
    have hle := hreached.1
    omega

namespace Garbled

/-- Two services, three rounds. -/
def settings : Settings := { hostname := none, delay := none, services := ["carts", "orders"], retry := 3 }

/-- The carts service answers the first request with something that is not JSON, and reports a healthy service from the second round on,
as the orders service always does. -/
def net : Net := fun i host _ => if i = 1 ∧ host = "carts" then .answered none else healthReply [(host, "OK")]

end Garbled

/-- The bad reply is not confined: the script ends with status 1 before it asks the orders service or begins a second round. -/
theorem bad_reply_aborts :
    (run Garbled.settings Garbled.net).status = 1 ∧ (run Garbled.settings Garbled.net).script.rounds = 1 ∧
      (run Garbled.settings Garbled.net).script.requests = [⟨1, "carts", "/health"⟩] ∧
      ¬Garbled.settings.Confined Garbled.net := by
  refine ⟨by decide, by decide, by decide, ?_⟩
  intro h
  exact absurd h.asksAll (by decide)

end SockShop.Healthcheck
