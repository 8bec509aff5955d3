/-!
# Results of steps that can fail

A result of several steps is taken apart into the results of the steps (`bind_eq_ok_iff`).

A list is *collected* item by item up to the first fault, which is told its position
(`collect`). There is a result exactly if no item is at fault, and otherwise the fault is
that of the first item that has one (`collect_eq_ok_iff`, `collect_eq_error_iff`). `mapM` is
the case where faults do not tell positions (`mapM_eq_ok_iff`, `mapM_eq_error_iff`). Where
every item can be told from its result, so can the list (`mapM_eq_ok_iff_eq_map`).
-/

namespace Except

variable {ε α β : Type} {x : Except ε α}

/-- A sequence of two steps succeeds if both of them do. -/
theorem bind_eq_ok_iff {f : α → Except ε β} {b : β} :
    x.bind f = .ok b ↔ ∃ a, x = .ok a ∧ f a = .ok b := by
  cases x <;> simp [Except.bind]

/-- A sequence of two steps fails with the error of the first one that does. -/
theorem bind_eq_error_iff {f : α → Except ε β} {e : ε} :
    x.bind f = .error e ↔ x = .error e ∨ ∃ a, x = .ok a ∧ f a = .error e := by
  cases x <;> simp [Except.bind]

theorem map_eq_ok_iff {f : α → β} {b : β} : x.map f = .ok b ↔ ∃ a, x = .ok a ∧ f a = b := by
  cases x <;> simp [Except.map]

theorem map_eq_error_iff {f : α → β} {e : ε} : x.map f = .error e ↔ x = .error e := by
  cases x <;> simp [Except.map]

theorem bind_ok_eq_map (x : Except ε α) (f : α → β) : (x.bind fun a => .ok (f a)) = x.map f := by
  cases x <;> rfl

/-- Leaving out errors keeps what succeeds. -/
theorem toOption_eq_some_iff {a : α} : x.toOption = some a ↔ x = .ok a := by
  cases x <;> simp [Except.toOption]

theorem exists_eq_ok_iff : (∃ a, x = .ok a) ↔ x.isOk := by
  cases x <;> simp [Except.isOk, Except.toBool]

theorem exists_eq_error_iff : (∃ e, x = .error e) ↔ x.isOk = false := by
  cases x <;> simp [Except.isOk, Except.toBool]

theorem mapError_ok {ε' : Type} (f : ε → ε') (a : α) :
    (Except.ok a : Except ε α).mapError f = .ok a :=
  rfl

theorem mapError_error {ε' : Type} (f : ε → ε') (e : ε) :
    (Except.error e : Except ε α).mapError f = .error (f e) :=
  rfl

theorem mapError_eq_ok_iff {ε' : Type} {f : ε → ε'} {a : α} :
    x.mapError f = .ok a ↔ x = .ok a := by
  cases x <;> simp [mapError_ok, mapError_error]

/-! ## Lists -/

/-- The results of the items, the first of which is at the given position, up to the first
    item at fault. An item may have no result. -/
def collect (judge : α → Except (Nat → ε) (Option β)) : Nat → List α → Except ε (List β)
  | _, [] => .ok []
  | position, a :: as =>
    match judge a with
    | .error fault => .error (fault position)
    | .ok r => (collect judge (position + 1) as).map (r.toList ++ ·)

variable {judge : α → Except (Nat → ε) (Option β)} {position : Nat} {as : List α}

/-- There are results if no item is at fault, and they are those of the items in order. -/
theorem collect_eq_ok_iff {bs : List β} :
    collect judge position as = .ok bs ↔
      (∀ a ∈ as, (judge a).isOk) ∧ (as.filterMap fun a => (judge a).toOption.join) = bs := by
  induction as generalizing position bs with
  | nil => simp [collect]
  | cons a as ih =>
    rw [collect, List.forall_mem_cons]
    cases ha : judge a with
    | error fault => simp [Except.isOk, Except.toBool]
    | ok r =>
      simp only [map_eq_ok_iff, ih, and_assoc, exists_and_left, exists_eq_left']
      cases r <;> simp [ha, Except.isOk, Except.toBool, Except.toOption]

/-- There is a fault if some item is at fault and none before it is, and it is the fault of
    that item at its position. -/
theorem collect_eq_error_iff {e : ε} :
    collect judge position as = .error e ↔
      ∃ before a after fault, as = before ++ a :: after ∧ (∀ b ∈ before, (judge b).isOk) ∧
        judge a = .error fault ∧ fault (position + before.length) = e := by
  induction as generalizing position with
  | nil =>
    refine iff_of_false (fun h => nomatch h) ?_
    rintro ⟨before, a, after, fault, h, -⟩
    exact List.append_ne_nil_of_right_ne_nil before (List.cons_ne_nil a after) h.symm
  | cons a as ih =>
    rw [collect]
    cases ha : judge a with
    | error fault =>
      constructor
      · intro h
        exact ⟨[], a, as, fault, rfl, by simp, ha, Except.error.inj h⟩
      · rintro ⟨before, a', after, fault', h, hbefore, ha', rfl⟩
        cases before with
        | nil =>
          obtain rfl : a = a' := (List.cons.inj h).1
          rw [ha] at ha'
          rw [Except.error.inj ha']
          rfl
        | cons b before =>
          obtain rfl : a = b := (List.cons.inj h).1
          have hok := hbefore a List.mem_cons_self
          rw [ha] at hok
          nomatch hok
    | ok r =>
      rw [map_eq_error_iff, ih]
      constructor
      · rintro ⟨before, a', after, fault, rfl, hbefore, ha', rfl⟩
        refine ⟨a :: before, a', after, fault, rfl, ?_, ha', ?_⟩
        · exact List.forall_mem_cons.2 ⟨by rw [ha]; rfl, hbefore⟩
        · rw [List.length_cons, Nat.add_assoc, Nat.add_comm 1]
      · rintro ⟨before, a', after, fault, h, hbefore, ha', rfl⟩
        cases before with
        | nil =>
          obtain rfl : a = a' := (List.cons.inj h).1
          rw [ha] at ha'
          nomatch ha'
        | cons b before =>
          refine ⟨before, a', after, fault, (List.cons.inj h).2,
            fun b hb => hbefore b (List.mem_cons_of_mem _ hb), ha', ?_⟩
          rw [List.length_cons, Nat.add_assoc, Nat.add_comm 1]

/-- Results without positions, which no item lacks, are those of `mapM`. -/
theorem mapM_eq_collect (f : α → Except ε β) (position : Nat) (as : List α) :
    as.mapM f = collect (fun a => ((f a).mapError fun e _ => e).map some) position as := by
  induction as generalizing position with
  | nil => rfl
  | cons a as ih =>
    rw [List.mapM_cons, collect, ih (position + 1)]
    cases f a with
    | error e => rfl
    | ok b => rfl

theorem isOk_mapError_map (x : Except ε α) :
    ((x.mapError fun e (_ : Nat) => e).map some).isOk = x.isOk := by
  cases x <;> rfl

/-- A run over a list succeeds if every item does, and gives what each of them gives. -/
theorem mapM_eq_ok_iff {f : α → Except ε β} {bs : List β} :
    as.mapM f = .ok bs ↔
      (∀ a ∈ as, (f a).isOk) ∧ as.filterMap (fun a => (f a).toOption) = bs := by
  have hresult (a : α) :
      (((f a).mapError fun e (_ : Nat) => e).map some).toOption.join = (f a).toOption := by
    cases f a <;> rfl
  simp only [mapM_eq_collect f 0, collect_eq_ok_iff, isOk_mapError_map, hresult]

theorem mapM_cons_eq_ok_iff {f : α → Except ε β} {a : α} {bs : List β} :
    (a :: as).mapM f = .ok bs ↔
      ∃ b, f a = .ok b ∧ ∃ more, as.mapM f = .ok more ∧ b :: more = bs := by
  rw [List.mapM_cons]
  refine bind_eq_ok_iff.trans (exists_congr fun b => and_congr_right' ?_)
  refine bind_eq_ok_iff.trans (exists_congr fun more => and_congr_right' ?_)
  exact ⟨Except.ok.inj, congrArg Except.ok⟩

/-- Items that are made of their results have these results. -/
theorem mapM_map_eq_ok {f : α → Except ε β} {g : β → α} {bs : List β}
    (h : ∀ b ∈ bs, f (g b) = .ok b) : (bs.map g).mapM f = .ok bs := by
  induction bs with
  | nil => rfl
  | cons b bs ih =>
    have hmore := ih fun c hc => h c (List.mem_cons_of_mem b hc)
    exact mapM_cons_eq_ok_iff.2 ⟨b, h b List.mem_cons_self, bs, hmore, rfl⟩

/-- If every item can be told from its result, the list can be told from its results. -/
theorem mapM_eq_ok_iff_eq_map {f : α → Except ε β} {g : β → α}
    (hfg : ∀ {a b}, f a = .ok b ↔ a = g b) {bs : List β} : as.mapM f = .ok bs ↔ as = bs.map g := by
  constructor
  · intro h
    induction as generalizing bs with
    | nil =>
      obtain rfl : [] = bs := Except.ok.inj h
      rfl
    | cons a as ih =>
      obtain ⟨b, hb, more, hmore, rfl⟩ := mapM_cons_eq_ok_iff.1 h
      rw [hfg.1 hb, ih hmore, List.map_cons]
  · rintro rfl
    exact mapM_map_eq_ok fun b _ => hfg.2 rfl

/-- A run over two lists is a run over each of them. -/
theorem mapM_append_eq_ok_iff {f : α → Except ε β} {as' : List α} {cs : List β} :
    (as ++ as').mapM f = .ok cs ↔
      ∃ bs bs', as.mapM f = .ok bs ∧ as'.mapM f = .ok bs' ∧ bs ++ bs' = cs := by
  rw [List.mapM_append]
  constructor
  · intro h
    obtain ⟨bs, hbs, h⟩ := bind_eq_ok_iff.1 h
    obtain ⟨bs', hbs', h⟩ := bind_eq_ok_iff.1 h
    exact ⟨bs, bs', hbs, hbs', Except.ok.inj h⟩
  · rintro ⟨bs, bs', hbs, hbs', rfl⟩
    rw [hbs, hbs']
    rfl

/-- A run over a list succeeds if every item does. -/
theorem isOk_mapM {f : α → Except ε β} : (as.mapM f).isOk ↔ ∀ a ∈ as, (f a).isOk := by
  constructor
  · intro h
    cases hbs : as.mapM f with
    | error e =>
      rw [hbs] at h
      nomatch h
    | ok bs => exact (mapM_eq_ok_iff.1 hbs).1
  · intro h
    rw [mapM_eq_ok_iff.2 ⟨h, rfl⟩]
    rfl

/-- The fault is that of the first item that has one. -/
theorem mapM_eq_error_iff {f : α → Except ε β} {e : ε} :
    as.mapM f = .error e ↔ ∃ a, as.find? (fun a => !(f a).isOk) = some a ∧ f a = .error e := by
  rw [mapM_eq_collect f 0, collect_eq_error_iff]
  simp only [isOk_mapError_map, List.find?_eq_some_iff_append, Bool.not_not]
  constructor
  · rintro ⟨before, a, after, fault, has, hbefore, ha, rfl⟩
    cases hfa : f a with
    | ok b =>
      rw [hfa] at ha
      nomatch ha
    | error e =>
      rw [hfa] at ha
      refine ⟨a, ⟨?_, before, after, has, hbefore⟩, ?_⟩
      · rw [hfa]
        rfl
      · rw [hfa, ← Except.error.inj ha]
  · rintro ⟨a, ⟨-, before, after, has, hbefore⟩, ha⟩
    refine ⟨before, a, after, fun _ => e, has, hbefore, ?_, rfl⟩
    rw [ha]
    rfl

end Except
