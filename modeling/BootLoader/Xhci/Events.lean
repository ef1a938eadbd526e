import BootLoader.Xhci.Code

/-!
# The event ring of the xHCI driver

As long as the driver stays inside the ring, it takes the events in the order they were posted in.
-/

namespace BootLoader.Xhci

variable {xhci xhci' : BlXhciController} {posts : Nat → List Event} {left k : Nat}

/-- What the driver has not read yet holds the events that were posted, in the first pass. -/
structure EventsInOrder (xhci : BlXhciController) : Prop where
  inside : xhci.erDequeue < blXhciErTrbs
  le : xhci.erDequeue ≤ xhci.posted.length
  consumed : xhci.consumed = xhci.posted.take xhci.erDequeue
  room : xhci.posted.length ≤ xhci.erDequeue + blXhciErTrbs
  ahead : ∀ i, xhci.erDequeue ≤ i → i < blXhciErTrbs →
    xhci.eventRing i = (xhci.posted[i]?).getD zeroEvent
  marked : ∀ i < blXhciErTrbs, ∀ e, xhci.posted[i]? = some e → e.cycle = true

/-- The rest of the state, which waiting leaves alone. -/
structure SameRings (xhci xhci' : BlXhciController) : Prop where
  command : xhci'.commandRing = xhci.commandRing
  devices : xhci'.devices = xhci.devices
  requests : xhci'.requests = xhci.requests
  stops : xhci'.stops = xhci.stops

theorem SameRings.refl (xhci : BlXhciController) : SameRings xhci xhci := ⟨rfl, rfl, rfl, rfl⟩

theorem SameRings.trans {x y z : BlXhciController} (h : SameRings x y) (h' : SameRings y z) :
    SameRings x z :=
  ⟨h'.command.trans h.command, h'.devices.trans h.devices, h'.requests.trans h.requests,
    h'.stops.trans h.stops⟩

theorem marked_cycle (e : Event) {n : Nat} (hn : n < blXhciErTrbs) : (e.marked n).cycle = true := by
  have hpass : n / blXhciErTrbs % 2 = 0 := by
    rw [Nat.div_eq_of_lt hn]
  simp [Event.marked, Event.cycle, hpass]

/-! ## Posting -/

/-- What posting `e` adds to `posted`. -/
def added (xhci : BlXhciController) (e : Event) : List Event :=
  if xhci.posted.length < xhci.erDequeue + blXhciErTrbs then [e.marked xhci.posted.length] else []

theorem post_posted (xhci : BlXhciController) (e : Event) :
    (post xhci e).posted = xhci.posted ++ added xhci e := by
  unfold post added
  split_ifs
  · rfl
  · exact (List.append_nil _).symm

theorem post_erDequeue (xhci : BlXhciController) (e : Event) :
    (post xhci e).erDequeue = xhci.erDequeue := by
  unfold post
  split_ifs <;> rfl

theorem post_sameRings (xhci : BlXhciController) (e : Event) : SameRings xhci (post xhci e) := by
  unfold post
  split_ifs <;> exact ⟨rfl, rfl, rfl, rfl⟩

theorem post_inOrder (h : EventsInOrder xhci) (e : Event) : EventsInOrder (post xhci e) := by
  unfold post
  split_ifs with hroom
  · refine ⟨h.inside, ?_, ?_, ?_, ?_, ?_⟩
    · simpa using Nat.le_succ_of_le h.le
    · simp only [h.consumed, List.take_append_of_le_length h.le]
    · rw [List.length_append, List.length_singleton]
      exact hroom
    · intro i (hi : xhci.erDequeue ≤ i) hlt
      have hinside := h.inside
      have hahead := h.ahead i hi hlt
      unfold blXhciErTrbs at *
      show Function.update xhci.eventRing _ _ i =
        ((xhci.posted ++ [e.marked xhci.posted.length])[i]?).getD zeroEvent
      rcases Nat.lt_or_ge xhci.posted.length 32 with hfirst | hsecond
      · rw [Nat.mod_eq_of_lt hfirst]
        rcases Nat.lt_trichotomy i xhci.posted.length with hbefore | rfl | hbehind
        · rw [Function.update_of_ne hbefore.ne, hahead, List.getElem?_append_left hbefore]
        · rw [Function.update_self, List.getElem?_concat_length, Option.getD_some]
        · rw [Function.update_of_ne hbehind.ne', hahead, List.getElem?_eq_none (by omega),
            List.getElem?_eq_none (by simp; omega)]
      · -- The second pass writes over what was read.
        have hover : xhci.posted.length % 32 ≠ i := by
          rw [Nat.mod_eq_sub_mod hsecond, Nat.mod_eq_of_lt (by omega)]
          omega
        rw [Function.update_of_ne hover.symm, hahead, List.getElem?_append_left (by omega)]
    · intro i hi e' he'
      rcases Nat.lt_or_ge i xhci.posted.length with hbefore | hge
      · rw [List.getElem?_append_left hbefore] at he'
        exact h.marked i hi e' he'
      · rw [List.getElem?_append_right hge] at he'
        have hzero : i - xhci.posted.length = 0 := by
          by_contra hne
          rw [List.getElem?_eq_none (by simp; omega)] at he'
          contradiction
        obtain rfl : i = xhci.posted.length := by omega
        simp only [Nat.sub_self, List.getElem?_cons_zero, Option.some.injEq] at he'
        rw [← he']
        exact marked_cycle e hi
  · exact h

theorem foldl_post_spec (es : List Event) (h : EventsInOrder xhci) :
    EventsInOrder (es.foldl post xhci) ∧ SameRings xhci (es.foldl post xhci) ∧
      (es.foldl post xhci).erDequeue = xhci.erDequeue := by
  induction es generalizing xhci with
  | nil => exact ⟨h, SameRings.refl _, rfl⟩
  | cons e es ih =>
    obtain ⟨hinOrder, hsame, hdequeue⟩ := ih (post_inOrder h e)
    exact ⟨hinOrder, (post_sameRings xhci e).trans hsame, hdequeue.trans (post_erDequeue xhci e)⟩

theorem foldl_post_length (xhci : BlXhciController) (es : List Event) :
    (es.foldl post xhci).posted.length ≤ xhci.posted.length + es.length := by
  induction es generalizing xhci with
  | nil => exact le_rfl
  | cons e es ih =>
    have hrest := ih (post xhci e)
    rw [post_posted] at hrest
    rw [List.foldl_cons, List.length_cons]
    unfold added at hrest
    split_ifs at hrest
    · rw [List.length_append, List.length_singleton] at hrest
      omega
    · rw [List.append_nil] at hrest
      omega

/-! ## Reading -/

theorem blXhciGetLastEvent_spec (h : EventsInOrder xhci) :
    (xhci.posted[xhci.erDequeue]? = none ∧ blXhciGetLastEvent xhci = (xhci, none)) ∨
      ∃ e, xhci.posted[xhci.erDequeue]? = some e ∧
        blXhciGetLastEvent xhci =
          ({ xhci with erDequeue := xhci.erDequeue + 1, consumed := xhci.consumed ++ [e] },
            some e) := by
  unfold blXhciGetLastEvent
  simp only [h.ahead _ le_rfl h.inside]
  cases hnext : xhci.posted[xhci.erDequeue]? with
  | none => exact .inl ⟨rfl, rfl⟩
  | some e =>
    refine .inr ⟨e, rfl, ?_⟩
    rw [Option.getD_some, if_pos (h.marked _ h.inside e hnext)]

theorem take_inOrder (h : EventsInOrder xhci) {e : Event}
    (he : xhci.posted[xhci.erDequeue]? = some e) (hroom : xhci.erDequeue + 1 < blXhciErTrbs) :
    EventsInOrder
      { xhci with erDequeue := xhci.erDequeue + 1, consumed := xhci.consumed ++ [e] } where
  inside := hroom
  le := (List.getElem?_eq_some_iff.mp he).1
  consumed := by
    rw [List.take_add_one, he, h.consumed]
    rfl
  room := by
    have hle := h.room
    show xhci.posted.length ≤ xhci.erDequeue + 1 + blXhciErTrbs
    omega
  ahead i hi hlt := h.ahead i (Nat.le_of_succ_le hi) hlt
  marked := h.marked

/-- What the controller posts while the driver waits. -/
def arriving (posts : Nat → List Event) : Nat → Nat → List Event
  | 0, _ => []
  | left + 1, k => posts k ++ arriving posts left (k + 1)

def unread (xhci : BlXhciController) : List Event := xhci.posted.drop xhci.erDequeue

/-- The driver does not come to the end of the ring: there is another position, or the event for
the last one is not posted. -/
def EventsFit (xhci : BlXhciController) (es : List Event) : Prop :=
  xhci.erDequeue + 1 < blXhciErTrbs ∨ xhci.posted.length + es.length < blXhciErTrbs

theorem waitEvent_spec (h : EventsInOrder xhci) (hfit : EventsFit xhci (arriving posts left k)) :
    EventsInOrder (waitEvent posts left k xhci).1 ∧
      SameRings xhci (waitEvent posts left k xhci).1 := by
  induction left generalizing k xhci with
  | zero => exact ⟨h, SameRings.refl _⟩
  | succ left ih =>
    obtain ⟨hposted, hsame, hdequeue⟩ := foldl_post_spec (posts k) h
    have hlength := foldl_post_length xhci (posts k)
    have hfit' : EventsFit ((posts k).foldl post xhci) (arriving posts left (k + 1)) := by
      unfold EventsFit at hfit ⊢
      rw [arriving, List.length_append] at hfit
      rw [hdequeue]
      exact hfit.imp_right fun hlt => by omega
    rw [waitEvent]
    rcases blXhciGetLastEvent_spec hposted with ⟨-, hread⟩ | ⟨e, he, hread⟩
    · rw [hread]
      obtain ⟨hinOrder, hsame'⟩ := ih hposted hfit'
      exact ⟨hinOrder, hsame.trans hsame'⟩
    · rw [hread]
      refine ⟨take_inOrder hposted he ?_, hsame.trans ⟨rfl, rfl, rfl, rfl⟩⟩
      have hlt := (List.getElem?_eq_some_iff.mp he).1
      rcases hfit' with hroom | hlast
      · exact hroom
      · omega

/-- While nothing is unread, the first event that is posted is the next one to be read. -/
theorem foldl_post_unread (h : EventsInOrder xhci) (es : List Event) :
    ((unread (es.foldl post xhci)).head?).map Event.request =
      ((unread xhci ++ es).head?).map Event.request := by
  induction es generalizing xhci with
  | nil => rw [List.foldl_nil, List.append_nil]
  | cons e es ih =>
    rw [List.foldl_cons, ih (post_inOrder h e)]
    have hstep : unread (post xhci e) = unread xhci ++ added xhci e := by
      unfold unread
      rw [post_posted, post_erDequeue, List.drop_append_of_le_length h.le]
    rw [hstep]
    cases hunread : unread xhci with
    | cons e' rest => rfl
    | nil =>
      have hle : xhci.posted.length ≤ xhci.erDequeue := List.drop_eq_nil_iff.mp hunread
      have hadded : added xhci e = [e.marked xhci.posted.length] := by
        unfold added
        rw [if_pos]
        unfold blXhciErTrbs
        omega
      rw [hadded]
      rfl

/-- **Waiting ends with the next event**, whichever it is. -/
theorem waitEvent_next (posts : Nat → List Event) (left k : Nat) (h : EventsInOrder xhci)
    {e : Event} (he : (waitEvent posts left k xhci).2 = some e) :
    ((unread xhci ++ arriving posts left k).head?).map Event.request = some e.request := by
  induction left generalizing k xhci with
  | zero => simp [waitEvent] at he
  | succ left ih =>
    obtain ⟨hposted, -, hdequeue⟩ := foldl_post_spec (posts k) h
    have hhead := foldl_post_unread h (posts k)
    rw [waitEvent] at he
    rw [arriving, ← List.append_assoc]
    rcases blXhciGetLastEvent_spec hposted with ⟨hnone, hread⟩ | ⟨e', he', hread⟩
    · rw [hread] at he
      have hempty : unread ((posts k).foldl post xhci) = [] := by
        unfold unread
        exact List.drop_eq_nil_iff.mpr (List.getElem?_eq_none_iff.mp hnone)
      have hrest := ih _ hposted he
      rw [hempty] at hhead hrest
      have hbefore : unread xhci ++ posts k = [] := by
        cases hall : unread xhci ++ posts k with
        | nil => rfl
        | cons e'' rest =>
          rw [hall] at hhead
          simp at hhead
      rw [hbefore]
      exact hrest
    · rw [hread] at he
      obtain rfl := Option.some.inj he
      have hfirst : (unread ((posts k).foldl post xhci)).head? = some e' := by
        unfold unread
        rw [List.head?_drop, he']
      rw [hfirst] at hhead
      cases hall : unread xhci ++ posts k with
      | nil =>
        rw [hall] at hhead
        simp at hhead
      | cons e'' rest =>
        rw [hall] at hhead
        exact hhead.symm

end BootLoader.Xhci
