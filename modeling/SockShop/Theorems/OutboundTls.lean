import SockShop.Lemmas.OutboundTls

/-!
# What the outbound TLS client leaves behind

An iteration closes the body of a response after it has read it and pauses at its end, so an error that ends it early leaves out the
pause, and after an answer the body as well: every iteration of a run ends cleanly exactly when none is left early
(`endsCleanly_iff`). Of each iteration that is left early at most one body stays open, that of the response that could not be read
(`open_iff_unread`). What is sent carries the number of its iteration, so that nothing is sent twice (`requests_sent`).
-/

namespace SockShop.OutboundTls

/-- At the start of every iteration all bodies are closed and all iterations before it have paused, if and only if in every iteration
the four requests are built and answered and the bodies of the first three responses are read. -/
theorem endsCleanly_iff (outs : List Outcomes) : EndsCleanly outs ↔ ∀ o ∈ outs, o.Complete := by
  constructor
  · intro h
    exact (sleep_mem_loop_iff 0 outs).1 (h outs (List.prefix_refl outs)).2
  · intro h before hbefore
    have hcomplete : ∀ o ∈ before, o.Complete := fun o ho => h o (hbefore.subset ho)
    exact ⟨released_loop 0 hcomplete, (sleep_mem_loop_iff 0 before).2 hcomplete⟩

/-- An exchange without an error. -/
def answered : Exchange := ⟨.ok (), .ok "&{Status:200 OK}", .ok ()⟩

/-- The body of the first response is not read to its end. -/
def unread : Outcomes := ⟨⟨.ok (), .ok "&{Status:404 Not Found}", .error "unexpected EOF"⟩, answered, answered, answered⟩

/-- It stays open, and the next iteration begins without a pause. -/
theorem unread_left_open :
    main [unread] = [[.sent (notFoundRequest 1), .opened ⟨1, 1⟩, .println "unexpected EOF"]] ∧ ¬EndsCleanly [unread] := by
  have hevents : main [unread] = [[.sent (notFoundRequest 1), .opened ⟨1, 1⟩, .println "unexpected EOF"]] := rfl
  refine ⟨hevents, ?_⟩
  intro h
  have hreleased := (h [unread] (List.prefix_refl _)).1
  rw [hevents] at hreleased
  obtain ⟨e, he, hcloses⟩ := hreleased.2.1 ⟨1, 1⟩ rfl
  rw [List.mem_singleton.1 he] at hcloses
  cases hcloses

/-- After every run the bodies that are open are those of the responses, other than to the last request, that an iteration did not
read: one of an iteration at most. -/
theorem open_iff_unread (outs : List Outcomes) (b : Body) :
    Unreleased Event.obtains Event.closes (main outs).flatten b ↔
      ∃ i o, outs[i]? = some o ∧ b.j = i + 1 ∧ o.leftOpen = some b.k := by
  rw [main, (unreleased_loop 0 outs).2 b]
  simp only [Nat.zero_add]

/-- In every run each iteration sends its own requests in their order, as many as it gets to, and no request is sent twice. -/
theorem requests_sent (outs : List Outcomes) :
    (main outs).map (·.filterMap Event.sends) = (outs.mapIdx fun i o => (requests (i + 1)).take o.sentCount) ∧
      ((main outs).flatten.filterMap Event.sends).Nodup := by
  refine ⟨?_, nodup_sends_loop 0 outs⟩
  rw [main, map_sends_loop]
  simp only [Nat.zero_add]

end SockShop.OutboundTls
