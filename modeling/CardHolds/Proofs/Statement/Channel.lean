import CardHolds.Statement.Channel

/-!
# Attempts to send and to receive

What each answer of a channel says about the channel: a message goes to the end of the queue if
somebody listens and there is room, and comes from its front if there is one.
-/

namespace CardHolds

namespace Channel
variable {α : Type} {c c' : Channel α} {value : α}

theorem send_sent (h : c.send value = .sent c') :
    c.receiverOpen = true ∧ c' = { c with queue := c.queue ++ [value] } := by
  unfold send at h
  split at h
  · cases h
  · rename_i hopen
    split at h
    · cases h
      exact ⟨by simpa using hopen, rfl⟩
    · cases h

theorem send_gone (h : c.send value = .gone) : c.receiverOpen = false := by
  unfold send at h
  split at h
  · rename_i hopen
    exact Bool.not_eq_true' _ ▸ hopen
  · split at h <;> cases h

theorem send_full (h : c.send value = .full) :
    c.receiverOpen = true ∧ c.capacity ≤ c.queue.length := by
  unfold send at h
  split at h
  · cases h
  · rename_i hopen
    split at h
    · cases h
    · rename_i hlength
      exact ⟨by simpa using hopen, Nat.not_lt.mp hlength⟩

theorem receive_message (h : c.receive = .message value c') :
    c.queue = value :: c'.queue ∧ c' = { c with queue := c'.queue } := by
  unfold receive at h
  split at h
  · rename_i hqueue
    cases h
    exact ⟨hqueue, rfl⟩
  · split at h <;> cases h

theorem receive_ended (h : c.receive = .ended) : c.queue = [] ∧ c.senderOpen = false := by
  unfold receive at h
  split at h
  · cases h
  · rename_i hqueue
    split at h
    · cases h
    · rename_i hopen
      exact ⟨hqueue, Bool.eq_false_iff.mpr hopen⟩

theorem receive_empty (h : c.receive = .empty) : c.queue = [] ∧ c.senderOpen = true := by
  unfold receive at h
  split at h
  · cases h
  · rename_i hqueue
    split at h
    · rename_i hopen
      exact ⟨hqueue, hopen⟩
    · cases h

end Channel

end CardHolds
