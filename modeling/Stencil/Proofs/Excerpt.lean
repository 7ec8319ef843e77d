import Stencil.Proofs.Likeness

/-!
# A part of a source by itself

A part of a source may be a source of its own: what stands between marker lines, or in a block of
code. Its tokens are those of the part in the source, at other places, but behind them the part is
over, and the source goes on. `Excerpt.likeness` sets the reading of the part beside the reading of
the source.
-/

namespace Stencil

/-- A range with its places moved. -/
def Span.map (move : Position → Position) (s : Span) : Span := ⟨s.file, move s.start, move s.stop⟩

/-- A token with its places moved. -/
def Token.map (move : Position → Position) (t : Token) : Token :=
  ⟨t.kind, t.value, move t.start, move t.stop⟩

namespace Grammar

variable {o o' : Options} {c c' : Cursor}

/-- The places of what was reported. -/
def placesOf (reported : List SyntaxError) : List Position := reported.map (·.token.start)

/-- A part of a source, seen from the whole. -/
structure Excerpt where
  /-- a place of the source, from that in the part -/
  move : Position → Position
  /-- the token in front of the part -/
  front : Token
  /-- the end of the part by itself -/
  last : Token
  /-- where it ends in the source -/
  stop : Token
  /-- the tokens of the source behind that -/
  behind : List Token
  /-- places of complaints that stand for each other -/
  places : Position → Position → Prop
  /-- the places of what was reported in front of the part -/
  reported : List Position
  last_kind : last.kind = .eof
  ends : endsCode stop = true
  before_move (p q : Position) : (move p).before (move q) = p.before q
  places_move (p : Position) : places p (move p)
  places_last : places last.start stop.start

namespace Excerpt

variable (x : Excerpt)

/-- A token of the part: it ends nothing, and the token in front of the part is in front of it. -/
structure Holds (t : Token) : Prop where
  isBefore : IsBefore t
  front : x.front.start.before (x.move t.start) = true

/-- A reading of the part and one of the source, with the tokens `ts` ahead in the part. -/
structure Cursors (ts : List Token) (c c' : Cursor) : Prop where
  holds : ∀ t ∈ ts, x.Holds t
  rest : c.rest = ts ++ [x.last]
  rest' : c'.rest = ts.map (Token.map x.move) ++ x.stop :: x.behind
  last : c.last = none ∧ c'.last = some x.front ∨
    ∃ t, c.last = some t ∧ c'.last = some (t.map x.move)
  reported : ∃ more, placesOf c'.reported = x.reported ++ more ∧
    List.Forall₂ x.places (placesOf c.reported) more

theorem ends_last : endsSection x.last = true := by rw [endsSection, x.last_kind]

variable {x}

theorem Cursors.current {ts : List Token} (h : x.Cursors ts c c') :
    (ts = [] ∧ c.current = x.last ∧ c'.current = x.stop) ∨
      (∃ t us, ts = t :: us ∧ c.current = t ∧ c'.current = t.map x.move) := by
  cases ts with
  | nil => exact .inl ⟨rfl, Cursor.current_of_rest h.rest, Cursor.current_of_rest h.rest'⟩
  | cons t us => exact .inr ⟨t, us, rfl, Cursor.current_of_rest h.rest, Cursor.current_of_rest h.rest'⟩

theorem Cursors.spanFrom {ts : List Token} (h : x.Cursors ts c c') (hfile : o'.file = o.file)
    {t : Token} (ht : x.Holds t) :
    c'.spanFrom o' (t.map x.move) = (c.spanFrom o t).map x.move := by
  unfold Cursor.spanFrom
  rw [hfile]
  rcases h.last with ⟨hlast, hlast'⟩ | ⟨u, hlast, hlast'⟩
  · have hfront : x.front.start.before (t.map x.move).start = true := ht.front
    simp only [hlast, hlast', Option.getD_none, Option.getD_some, if_pos hfront, ite_self]
    rfl
  · have hbefore : (u.map x.move).start.before (t.map x.move).start = u.start.before t.start :=
      x.before_move u.start t.start
    simp only [hlast, hlast', Option.getD_some, hbefore]
    split <;> rfl

theorem Cursors.ended {ts : List Token} (h : x.Cursors ts c c') : c.Ended := by
  refine ⟨x.last, ?_, x.last_kind⟩
  rw [h.rest]
  simp

theorem Cursors.length_le {ts : List Token} (h : x.Cursors ts c c') : c.rest.length ≤ c'.rest.length := by
  rw [h.rest, h.rest']
  simp

theorem Cursors.at_last {ts : List Token} (h : x.Cursors ts c c') (hc : c.current = x.last) : ts = [] := by
  obtain ⟨hts, -⟩ | ⟨t, us, rfl, ht, -⟩ := h.current
  · exact hts
  · have hbefore := (h.holds t List.mem_cons_self).isBefore
    rw [← ht, hc] at hbefore
    exact absurd x.ends_last (ne_true_of_eq_false hbefore)

theorem Cursors.advance {ts us us' : List Token} {t t' : Token} (h : x.Cursors ts c c')
    (hr : c.rest = t :: us) (hr' : c'.rest = t' :: us') (ht : t' = t.map x.move) (hk : t.kind ≠ .eof) :
    ∃ vs, x.Cursors vs (c.behind t us) (c'.behind t' us') := by
  have hrest := h.rest
  have hrest' := h.rest'
  cases ts with
  | nil =>
    rw [hr, List.nil_append, List.cons.injEq] at hrest
    exact absurd (hrest.1 ▸ x.last_kind) hk
  | cons u ts =>
    rw [hr, List.cons_append, List.cons.injEq] at hrest
    rw [hr', List.map_cons, List.cons_append, List.cons.injEq] at hrest'
    exact ⟨ts, fun v hv => h.holds v (List.mem_cons_of_mem _ hv), hrest.2, hrest'.2,
      .inr ⟨t, rfl, congrArg some ht⟩, h.reported⟩

theorem Cursors.report {ts : List Token} {e e' : SyntaxError} (h : x.Cursors ts c c')
    (he : x.places e.token.start e'.token.start) :
    x.Cursors ts { c with reported := c.reported ++ [e] } { c' with reported := c'.reported ++ [e'] } := by
  refine ⟨h.holds, h.rest, h.rest', h.last, ?_⟩
  obtain ⟨more, hmore, hplaces⟩ := h.reported
  refine ⟨more ++ [e'.token.start], ?_, ?_⟩
  · simp only [placesOf] at hmore
    simp [placesOf, hmore]
  · simp only [placesOf, List.map_append, List.map_cons, List.map_nil]
    exact List.rel_append hplaces (.cons he .nil)

/-- A cursor that complains about nothing, beside one that has not complained since. -/
theorem Cursors.reported_eq_nil {ts : List Token} (h : x.Cursors ts c c') (hreported : x.reported = [])
    (hc : c.reported = []) : c'.reported = [] := by
  obtain ⟨more, hmore, hplaces⟩ := h.reported
  rw [hc, placesOf, List.map_nil, List.forall₂_nil_left_iff] at hplaces
  rw [hreported, hplaces, placesOf, List.nil_append, List.map_eq_nil_iff] at hmore
  exact hmore

variable (x)

/-- The part by itself, beside the part of the source that it is. -/
def likeness (hfile : o'.file = o.file) (hdepth : o'.depthLimit = o.depthLimit) : Likeness o o' where
  move := Span.map x.move
  tokens t t' := t' = t.map x.move ∧ x.Holds t
  tails t t' := t = x.last ∧ t' = x.stop
  cursors c c' := ∃ ts, x.Cursors ts c c'
  errors e e' := x.places e.token.start e'.token.start
  faults _ := True
  depth := hdepth
  atom h := by rw [h.1]; rfl
  ends h := by rw [h.1, h.2]; exact ⟨x.ends_last, x.ends⟩
  ended h := h.elim fun _ h => h.ended
  length_le h := h.elim fun _ h => h.length_le
  current := by
    rintro c c' ⟨ts, h⟩
    obtain ⟨rfl, hc, hc'⟩ | ⟨t, us, rfl, rfl, hc'⟩ := h.current
    · exact .inr ⟨hc, hc'⟩
    · exact .inl ⟨hc', h.holds _ List.mem_cons_self⟩
  last := by
    rintro c c' ⟨ts, h⟩ htails
    rw [h.rest, h.at_last htails.1]
    exact Nat.le_refl 1
  advance hc hr hr' ht hon := hc.elim fun _ h => h.advance hr hr' ht.1 hon.isBefore.ne_eof
  report hc he := hc.elim fun ts h => ⟨ts, h.report he⟩
  span := by
    rintro c c' t t' ⟨ts, h⟩ ⟨rfl, ht⟩
    exact h.spanFrom hfile ht
  error problem h := by rw [h.1]; exact x.places_move _
  error_tails problem problem' h := by
    rw [h.1, h.2]
    exact x.places_last
  missingEnd keyword h hs := by rw [h.1]; exact x.places_move _
  tooLong _ _ _ := trivial

/-- Up to its end, the part and the source have the same tokens, those between statements too. -/
instance passes (hfile : o'.file = o.file) (hdepth : o'.depthLimit = o.depthLimit) :
    (x.likeness hfile hdepth).Passes where
  pass hc hr hr' ht hk := hc.elim fun _ h => h.advance hr hr' ht.1 hk

/-- A part that ends where a section of the source does. -/
theorem closed (hfile : o'.file = o.file) (hdepth : o'.depthLimit = o.depthLimit)
    (h : endsSection x.stop = true) : (x.likeness hfile hdepth).Closed where
  ends ht := ht.2 ▸ h

end Excerpt

end Grammar

end Stencil
