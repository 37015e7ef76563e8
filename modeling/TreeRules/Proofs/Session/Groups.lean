import TreeRules.Prompt
import TreeRules.Proofs.Rule.Parens

/-!
# What becomes of typed lines

The events at the prompt fall into groups. A group is a number of lines typed one after another, up
to the first that closes all parentheses opened so far, or up to an interrupt. In the first case the
lines, joined by line feeds, are a text for the session; in the second they are thrown away. Behind
the last group there may be lines left for which the end of the input came too early. Only a session
that wants no further lines leaves events unread.

So no line is lost, none counts twice, and none that was thrown away comes back
(`Prompt.exists_account`). The session hears of nothing else than the texts of the groups
(`Prompt.Asking.heard`). What carries the proof is that between two events the buffer holds lines
that are `Incomplete`, joined, so that it says whether any have been collected. An event then
completes one group at most (`Prompt.Account.step`), and that is the account of it.
-/

namespace TreeRules

variable {s s' last : Session} {line : List Char} {lines pending left : List (List Char)}

/-! ## Lines that belong together -/

/-- Lines, joined by line feeds. -/
def joined (lines : List (List Char)) : List Char := ['\n'].intercalate lines

/-- After each of the lines there are still parentheses to close. -/
def Incomplete (lines : List (List Char)) : Prop :=
  ∀ front, front <+: lines → front ≠ [] → 0 < openParens (joined front)

/-- The last of the lines is the first after which there are no parentheses to close. -/
def Complete (lines : List (List Char)) : Prop :=
  ∃ front line, lines = front ++ [line] ∧ Incomplete front ∧ openParens (joined lines) ≤ 0

theorem joined_concat (hne : lines ≠ []) (line : List Char) :
    joined (lines ++ [line]) = joined lines ++ '\n' :: line := by
  induction lines with
  | nil => exact absurd rfl hne
  | cons first lines ih =>
    cases lines with
    | nil => simp [joined]
    | cons second lines =>
      have hrest := ih (List.cons_ne_nil second lines)
      simp only [joined, List.cons_append, List.intercalate_cons_cons] at hrest ⊢
      rw [hrest, List.append_assoc, List.append_assoc, List.append_assoc]

theorem Incomplete.pos (h : Incomplete lines) (hne : lines ≠ []) : 0 < openParens (joined lines) :=
  h lines (List.prefix_refl lines) hne

/-- Incomplete lines leave something in the buffer. -/
theorem Incomplete.joined_ne_nil (h : Incomplete lines) (hne : lines ≠ []) : joined lines ≠ [] := by
  intro hnil
  have hopen := h.pos hne
  rw [hnil] at hopen
  exact absurd hopen (by decide)

theorem incomplete_nil : Incomplete [] :=
  fun _ hfront hne => absurd (List.prefix_nil.mp hfront) hne

theorem Incomplete.concat (h : Incomplete lines)
    (hparens : 0 < openParens (joined (lines ++ [line]))) : Incomplete (lines ++ [line]) := by
  intro front hfront hne
  rcases List.prefix_concat_iff.mp hfront with rfl | hfront
  · exact hparens
  · exact h front hfront hne

/-! ## Groups -/

/-- Lines typed one after another, and what became of them. -/
inductive Group where
  /-- they were a text for the session -/
  | submitted (lines : List (List Char))
  /-- an interrupt threw them away, if there were any -/
  | cancelled (lines : List (List Char))

namespace Group

/-- The events that make up the group. -/
def events : Group → List Event
  | submitted lines => lines.map .line
  | cancelled lines => lines.map .line ++ [.interrupt]

/-- The text that the session was given. -/
def text? : Group → Option (List Char)
  | submitted lines => some (joined lines)
  | cancelled _ => none

end Group

/-- Groups that follow each other, from one session to another. Each of them starts while further
lines are wanted. -/
inductive Collected : Session → List Group → Session → Prop where
  /-- there are no groups -/
  | nil (s : Session) : Collected s [] s
  /-- a text is processed, and the other groups are for the session that this leaves -/
  | submitted {s last : Session} {lines : List (List Char)} {groups : List Group}
      (hrunning : s.running = true) (hlines : Complete lines)
      (h : Collected (s.process (joined lines)).1 groups last) :
      Collected s (.submitted lines :: groups) last
  /-- lines are thrown away, and the session does not hear of them -/
  | cancelled {s last : Session} {lines : List (List Char)} {groups : List Group}
      (hrunning : s.running = true) (hlines : Incomplete lines) (h : Collected s groups last) :
      Collected s (.cancelled lines :: groups) last

theorem Collected.append {front groups : List Group} (hfront : Collected s front s')
    (h : Collected s' groups last) : Collected s (front ++ groups) last := by
  induction hfront with
  | nil s => exact h
  | submitted hrunning hlines _ ih => exact .submitted hrunning hlines (ih h)
  | cancelled hrunning hlines _ ih => exact .cancelled hrunning hlines (ih h)

namespace Prompt

variable {verbose : Bool} {event : Event} {events unread : List Event}

/-! ## The prompt, time after time -/

/-- A time that the prompt asks for a line. -/
structure Asking where
  /-- the state of the prompt -/
  prompt : Prompt
  /-- what happens then, unless the input ends -/
  event? : Option Event

/-- All the times that the prompt asks while these events happen. -/
def askings (verbose : Bool) (p : Prompt) (events : List Event) : List Asking :=
  if p.session.running then
    match events with
    | [] => [⟨p, none⟩]
    | event :: events => ⟨p, some event⟩ :: askings verbose (p.step verbose event).1 events
  else []

namespace Asking

/-- What is shown then: the mark, and what comes of the event. -/
def shown (verbose : Bool) (a : Asking) : List Emission :=
  .out a.prompt.mark ::
    match a.event? with
    | none => atEnd
    | some event => (a.prompt.step verbose event).2

/-- The text that the session is given then. -/
def text? (a : Asking) : Option (List Char) :=
  match a.event? with
  | some (.line cs) =>
    let text := a.prompt.extend cs
    if openParens text > 0 then none else some text
  | _ => none

/-- What the session hears of the event is the text that it is given: it processes this text, its
answer is shown, and the buffer is empty again. Without a text it does not hear of the event. -/
def Heard (verbose : Bool) (a : Asking) (event : Event) : Prop :=
  match a.text? with
  | some text =>
    a.prompt.step verbose event = (⟨(a.prompt.session.process text).1, []⟩,
      Emission.notes verbose a.prompt.session text ++
        Emission.lineIfAny (a.prompt.session.process text).2)
  | none => (a.prompt.step verbose event).1.session = a.prompt.session

/-- Nothing else comes to the session when the prompt makes its step. -/
theorem heard {a : Asking} (h : a.event? = some event) : a.Heard verbose event := by
  obtain ⟨p, event?⟩ := a
  obtain rfl : event? = some event := h
  cases event with
  | line cs =>
    by_cases hparens : openParens (p.extend cs) > 0
    · simp only [Heard, step, text?, if_pos hparens]
    · simp only [Heard, step, text?, if_neg hparens]
  | interrupt => rfl

end Asking

theorem askings_of_not_running (hs : s.running = false) (buffer : List Char)
    (events : List Event) : askings verbose ⟨s, buffer⟩ events = [] := by
  rw [askings.eq_def, if_neg (by simp [hs])]

/-- What is shown is what is shown each time that the prompt asks. -/
theorem shown_run (p : Prompt) (events : List Event) :
    (run verbose p events).2 = (askings verbose p events).flatMap (Asking.shown verbose) := by
  induction events generalizing p with
  | nil =>
    rw [run, askings]
    split <;> rfl
  | cons event events ih =>
    rw [run, askings]
    split
    · rw [List.flatMap_cons, ← ih]
      rfl
    · rfl

/-! ## The buffer -/

/-- The buffer is extended by a line like the lines collected in it. -/
theorem extend_joined (h : Incomplete pending) (s : Session) (line : List Char) :
    extend ⟨s, joined pending⟩ line = joined (pending ++ [line]) := by
  by_cases hne : pending = []
  · simp [hne, extend, joined]
  · rw [joined_concat hne, extend, if_neg (by simpa using h.joined_ne_nil hne)]

/-- Between two events the buffer is empty or has parentheses to close, and the mark says which. -/
theorem mark_joined (h : Incomplete pending) (s : Session) :
    joined pending = [] ∧ mark ⟨s, joined pending⟩ = "ers> " ∨
      0 < openParens (joined pending) ∧ mark ⟨s, joined pending⟩ = "...... " := by
  by_cases hne : pending = []
  · exact Or.inl (by simp [hne, joined, mark])
  · exact Or.inr ⟨h.pos hne, by simp [mark, h.joined_ne_nil hne]⟩

/-! ## The account -/

/-- What became of all events from here on, where some lines are in the buffer: the groups, the
lines left when the input ends, the events that are not read, and the session at the end. -/
structure Account (verbose : Bool) (s : Session) (pending : List (List Char)) (events : List Event)
    (groups : List Group) (left : List (List Char)) (unread : List Event) (last : Session) :
    Prop where
  /-- the groups follow each other up to the session at the end -/
  collected : Collected s groups last
  /-- there are parentheses to close after each of the lines left -/
  incomplete_left : Incomplete left
  /-- every line is in one group, or left, or not read, and all are in order -/
  events_eq : pending.map .line ++ events =
    groups.flatMap Group.events ++ left.map .line ++ unread
  /-- lines are left only by the end of the input -/
  left_eq_nil : left = [] ∨ last.running = true
  /-- events are not read only because no further lines are wanted -/
  unread_eq_nil : unread = [] ∨ last.running = false
  /-- at the end there are the lines left in the buffer -/
  run_eq : (run verbose ⟨s, joined pending⟩ events).1 = ⟨last, joined left⟩
  /-- what is shown is what is shown each time that the prompt asks -/
  shown_eq : (run verbose ⟨s, joined pending⟩ events).2 =
    (askings verbose ⟨s, joined pending⟩ events).flatMap (Asking.shown verbose)
  /-- the prompt is asked for these events, and for no others -/
  asked_eq : pending.map .line ++
      (askings verbose ⟨s, joined pending⟩ events).filterMap Asking.event? =
    groups.flatMap Group.events ++ left.map .line
  /-- each time that something happens, the session hears of the text for it, and of nothing else -/
  heard : ∀ a ∈ askings verbose ⟨s, joined pending⟩ events, ∀ event ∈ a.event?,
    a.Heard verbose event
  /-- the texts for the session are those of the groups -/
  texts_eq : (askings verbose ⟨s, joined pending⟩ events).filterMap Asking.text? =
    groups.filterMap Group.text?
  /-- each time that the prompt asks, further lines are wanted, and the buffer is empty or has
  parentheses to close; the mark says which -/
  mark_eq : ∀ a ∈ askings verbose ⟨s, joined pending⟩ events, a.prompt.session.running = true ∧
    (a.prompt.buffer = [] ∧ a.prompt.mark = "ers> " ∨
      0 < openParens a.prompt.buffer ∧ a.prompt.mark = "...... ")

variable {groups new : List Group}

/-- Where no lines are wanted, nothing is read. -/
theorem account_of_not_running (hs : s.running = false) (events : List Event) :
    Account verbose s [] events [] [] events s where
  collected := .nil s
  incomplete_left := incomplete_nil
  events_eq := rfl
  left_eq_nil := Or.inl rfl
  unread_eq_nil := Or.inr hs
  run_eq := by
    rw [run.eq_def, if_neg (by simp [hs])]
  shown_eq := shown_run _ _
  asked_eq := by
    rw [askings_of_not_running hs]
    rfl
  heard := fun _ _ _ => Asking.heard
  texts_eq := by
    rw [askings_of_not_running hs]
    rfl
  mark_eq := by
    rw [askings_of_not_running hs]
    simp

/-- At the end of the input the lines in the buffer are left. -/
theorem account_of_end (hs : s.running = true) (h : Incomplete pending) :
    Account verbose s pending [] [] pending [] s := by
  have hasked : askings verbose ⟨s, joined pending⟩ [] = [⟨⟨s, joined pending⟩, none⟩] := by
    rw [askings, if_pos hs]
  exact {
    collected := .nil s
    incomplete_left := h
    events_eq := by simp
    left_eq_nil := Or.inr hs
    unread_eq_nil := Or.inl rfl
    run_eq := by
      rw [run, if_pos hs]
    shown_eq := shown_run _ _
    asked_eq := by simp [hasked]
    heard := fun _ _ _ => Asking.heard
    texts_eq := by simp [hasked, Asking.text?]
    mark_eq := by
      rw [hasked, List.forall_mem_singleton]
      exact ⟨hs, mark_joined h s⟩ }

/-- One event, and the account of what comes after it. The event takes the prompt to a session with
other lines in its buffer, and completes the groups `new`, which is one group at most. -/
theorem Account.step (hs : s.running = true) (h : Incomplete pending)
    (hstep : (Prompt.step verbose ⟨s, joined pending⟩ event).1 = ⟨s', joined lines⟩)
    (hnew : Collected s new s')
    (hevents : pending.map .line ++ [event] = new.flatMap Group.events ++ lines.map .line)
    (htext : (Asking.text? ⟨⟨s, joined pending⟩, some event⟩).toList = new.filterMap Group.text?)
    (hrest : Account verbose s' lines events groups left unread last) :
    Account verbose s pending (event :: events) (new ++ groups) left unread last := by
  have hasked : askings verbose ⟨s, joined pending⟩ (event :: events) =
      ⟨⟨s, joined pending⟩, some event⟩ :: askings verbose ⟨s', joined lines⟩ events := by
    rw [askings, if_pos hs, hstep]
  -- the groups of the event and of what comes after it make up the groups of all
  have hbehind : ∀ {front back}, lines.map .line ++ front = groups.flatMap Group.events ++ back →
      pending.map .line ++ event :: front = (new ++ groups).flatMap Group.events ++ back := by
    intro front back heq
    rw [List.append_cons, hevents, List.append_assoc, heq, List.flatMap_append, List.append_assoc]
  exact {
    collected := hnew.append hrest.collected
    incomplete_left := hrest.incomplete_left
    events_eq := by
      rw [List.append_assoc]
      exact hbehind (hrest.events_eq.trans (List.append_assoc ..))
    left_eq_nil := hrest.left_eq_nil
    unread_eq_nil := hrest.unread_eq_nil
    run_eq := by
      rw [run, if_pos hs]
      simp only [hstep]
      exact hrest.run_eq
    shown_eq := shown_run _ _
    asked_eq := by
      rw [hasked, List.filterMap_cons]
      exact hbehind hrest.asked_eq
    heard := fun _ _ _ => Asking.heard
    texts_eq := by
      rw [hasked, List.filterMap_append, ← htext, ← hrest.texts_eq, List.filterMap_cons]
      cases Asking.text? ⟨⟨s, joined pending⟩, some event⟩ <;> rfl
    mark_eq := by
      rw [hasked, List.forall_mem_cons]
      exact ⟨⟨hs, mark_joined h s⟩, hrest.mark_eq⟩ }

/-- A line that leaves parentheses to close completes no group. -/
theorem Account.collect (hs : s.running = true) (h : Incomplete pending)
    (hparens : 0 < openParens (joined (pending ++ [line])))
    (hrest : Account verbose s (pending ++ [line]) events groups left unread last) :
    Account verbose s pending (.line line :: events) groups left unread last := by
  have hline : extend ⟨s, joined pending⟩ line = joined (pending ++ [line]) :=
    extend_joined h s line
  refine hrest.step hs h ?_ (.nil s) (by simp) ?_
  · simp only [Prompt.step, hline, if_pos hparens]
  · simp only [Asking.text?, hline, if_pos hparens]
    rfl

/-- Any other line completes a group, and the session is given what it holds. -/
theorem Account.submit (hs : s.running = true) (h : Incomplete pending)
    (hparens : ¬ 0 < openParens (joined (pending ++ [line])))
    (hrest : Account verbose (s.process (joined (pending ++ [line]))).1 [] events groups left
      unread last) :
    Account verbose s pending (.line line :: events) (.submitted (pending ++ [line]) :: groups)
      left unread last := by
  have hline : extend ⟨s, joined pending⟩ line = joined (pending ++ [line]) :=
    extend_joined h s line
  have hlines : Complete (pending ++ [line]) := ⟨pending, line, rfl, h, Int.not_lt.mp hparens⟩
  refine hrest.step hs h ?_ (.submitted hs hlines (.nil _)) (by simp [Group.events]) ?_
  · simp only [Prompt.step, hline, if_neg hparens]
    rfl
  · simp only [Asking.text?, hline, if_neg hparens]
    rfl

/-- An interrupt completes a group that the session is not given. -/
theorem Account.cancel (hs : s.running = true) (h : Incomplete pending)
    (hrest : Account verbose s [] events groups left unread last) :
    Account verbose s pending (.interrupt :: events) (.cancelled pending :: groups) left unread
      last :=
  hrest.step hs h rfl (.cancelled hs h (.nil s)) (by simp [Group.events]) rfl

/-- There is an account whatever lines are in the buffer. -/
theorem exists_account_of_incomplete (verbose : Bool) (s : Session) (h : Incomplete pending)
    (hs : pending = [] ∨ s.running = true) (events : List Event) :
    ∃ groups left unread last, Account verbose s pending events groups left unread last := by
  induction events generalizing s pending with
  | nil =>
    cases hrunning : s.running with
    | true => exact ⟨[], pending, [], s, account_of_end hrunning h⟩
    | false =>
      obtain rfl := hs.resolve_right (by simp [hrunning])
      exact ⟨[], [], [], s, account_of_not_running hrunning []⟩
  | cons event events ih =>
    cases hrunning : s.running with
    | true =>
      cases event with
      | line cs =>
        by_cases hparens : 0 < openParens (joined (pending ++ [cs]))
        · obtain ⟨groups, left, unread, last, hrest⟩ := ih s (h.concat hparens) (Or.inr hrunning)
          exact ⟨_, _, _, _, hrest.collect hrunning h hparens⟩
        · obtain ⟨groups, left, unread, last, hrest⟩ := ih _ incomplete_nil (Or.inl rfl)
          exact ⟨_, _, _, _, hrest.submit hrunning h hparens⟩
      | interrupt =>
        obtain ⟨groups, left, unread, last, hrest⟩ := ih s incomplete_nil (Or.inl rfl)
        exact ⟨_, _, _, _, hrest.cancel hrunning h⟩
    | false =>
      obtain rfl := hs.resolve_right (by simp [hrunning])
      exact ⟨[], [], _, s, account_of_not_running hrunning _⟩

/-- **The prompt loses, repeats and reorders nothing.** Whatever happens at the prompt of any
session, there is an account of it, from an empty buffer on. -/
theorem exists_account (verbose : Bool) (s : Session) (events : List Event) :
    ∃ groups left unread last, Account verbose s [] events groups left unread last :=
  exists_account_of_incomplete verbose s incomplete_nil (Or.inl rfl) events

end Prompt

end TreeRules
