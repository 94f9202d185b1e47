/-
Lists and objects, read item by item.

The readers of lists and objects do not see a list or an object.  They see a comma or a
bracket, decide on that, and hand the text on.  So nothing can be said of them in one
step: what is proved is how the text looks after each item, and the grammar has a name
for it (`More`), whatever the gaps were.

For objects this is done in both directions, because a configuration is refused for
what is in it as well as taken for what is in it.  A `Chain` leads from member to member
by steps of the running result.  If every member takes the result a step further, the
loop ends where the chain does.  And if the loop ends well there was such a chain, with
the names that the grammar gives to the members, since a value that is read is read to
its end.  For that the keys have to be looked at once more: a key that spells nothing
ends the loop.

A reader that starts with a look at the next character does not care for gaps in front
of it.  All readers of values do.
-/
import Rollover.Proofs.PassedOver

namespace Rollover

namespace Document

/-! ### Keys -/

theorem readText_backslash_eq_ok {s t rest : List Char}
    (h : readText ('\\' :: s) = .ok (t, rest)) :
    ∃ c n u, readEscape s = .ok (c, n) ∧ readText (s.drop n) = .ok (u, rest) ∧ t = c :: u := by
  rw [readText, if_neg (by decide), if_pos rfl] at h
  obtain ⟨⟨c, n⟩, hescape, h⟩ := ok_of_bind h
  obtain ⟨⟨u, rest'⟩, hread, h⟩ := ok_of_bind h
  cases h
  exact ⟨c, n, u, hescape, hread, rfl⟩

/-- A unit is a character, or it is the leading half of a pair and the trailing one follows. -/
theorem readEscape_unit_eq_ok {ds s : List Char} {n j : Nat} {c : Char} (hds : HexUnit ds n)
    (h : readEscape ('u' :: (ds ++ s)) = .ok (c, j)) :
    (isLeadingHalf n = false ∧ isTrailingHalf n = false ∧ c = Char.ofNat n ∧ j = 5) ∨
      ∃ u m, isLeadingHalf n = true ∧ s = '\\' :: 'u' :: u ∧ unit u = .ok m ∧
        isTrailingHalf m = true ∧
        c = Char.ofNat (0x10000 + 1024 * (n - 0xd800) + (m - 0xdc00)) ∧ j = 11 := by
  unfold readEscape at h
  obtain ⟨n', hn', h⟩ := ok_of_bind h
  rw [hds.unit_append] at hn'
  cases hn'
  rw [List.drop_left' hds.length_eq] at h
  split at h
  · cases h
  rename_i htrailing
  split at h
  · rename_i hleading
    split at h
    · cases h
    · cases h
    · rename_i u _
      obtain ⟨m, hm, h⟩ := ok_of_bind h
      split at h
      · rename_i hm'
        obtain ⟨rfl, rfl⟩ := Prod.mk.inj (Except.ok.inj h)
        exact .inr ⟨u, m, hleading, rfl, hm, hm', rfl, rfl⟩
      · cases h
    · cases h
  · rename_i hleading
    obtain ⟨rfl, rfl⟩ := Prod.mk.inj (Except.ok.inj h)
    exact .inl ⟨by simpa using hleading, by simpa using htrailing, rfl, rfl⟩

/-- What is read of a text is what it spells.  The induction is on the length, since a pair of
halves is read as one. -/
theorem spells_of_readText {k s rest rest' : List Char} (hk : IsLiteral k)
    (h : readText (k ++ '"' :: rest) = .ok (s, rest')) : Spells s k := by
  induction hlen : k.length using Nat.strongRecOn generalizing k s with
  | ind len ih =>
      cases hk with
      | nil =>
          rw [List.nil_append, readText, if_pos rfl] at h
          cases h
          exact .nil
      | @plain c k hc hk =>
          rw [List.cons_append, readText_plain hc] at h
          obtain ⟨⟨t, _⟩, hread, h⟩ := ok_of_map h
          cases h
          exact .plain hc (ih k.length (by simp [← hlen]) hk hread rfl)
      | @letter e c k he hk =>
          rw [List.cons_append, List.cons_append, readText_letter he] at h
          obtain ⟨⟨t, _⟩, hread, h⟩ := ok_of_map h
          cases h
          have hshort : k.length < len := by
            simp only [← hlen, List.length_cons]
            omega
          exact .letter he (ih k.length hshort hk hread rfl)
      | @unit ds n k hds hk =>
          rw [List.cons_append, List.cons_append, List.append_assoc] at h
          obtain ⟨c, j, t, hescape, hread, rfl⟩ := readText_backslash_eq_ok h
          rcases readEscape_unit_eq_ok hds hescape with
            ⟨hleading, htrailing, rfl, rfl⟩ | ⟨u, m, hleading, hu, hm, htrailing, hc, hj⟩
          · rw [List.drop_succ_cons, List.drop_left' hds.length_eq] at hread
            have hshort : k.length < len := by
              simp only [← hlen, List.length_cons, List.length_append]
              omega
            exact .unit hds hleading htrailing (ih k.length hshort hk hread rfl)
          · -- the text goes on with another unit, or the pair could not have been read
            cases hk with
            | nil => cases (List.cons.inj hu).1
            | plain hc hk => exact absurd (List.cons.inj hu).1 hc.2.1
            | letter he hk =>
                exact absurd (List.cons.inj (List.cons.inj hu).2).1 (ne_u_of_letterEscape? he)
            | @unit es m' k hes hk =>
                have hunit : es ++ (k ++ '"' :: rest) = u := by
                  rw [List.cons_append, List.cons_append, List.append_assoc] at hu
                  exact (List.cons.inj (List.cons.inj hu).2).2
                rw [← hunit, hes.unit_append] at hm
                cases hm
                simp only [List.cons_append, List.append_assoc] at hread
                rw [hj, drop_pair hds hes] at hread
                have hshort : k.length < len := by
                  simp only [← hlen, List.length_cons, List.length_append]
                  omega
                rw [hc]
                exact .pair hds hes hleading htrailing (ih k.length hshort hk hread rfl)

theorem Key.readText_eq_ok {name : Option (List Char)} {k s rest rest' : List Char}
    (hk : Key name k) (h : readText (k ++ '"' :: rest) = .ok (s, rest')) :
    name = some s ∧ rest' = rest := by
  cases hk with
  | named hk =>
      rw [hk.readText_eq] at h
      cases h
      exact ⟨rfl, rfl⟩
  | nameless hk hnone => exact absurd (spells_of_readText hk h) (hnone s)

namespace Reader

variable {α β σ : Type}

/-! ### Gaps in front of a value -/

theorem run_peek (s : List Char) : peek.run s = .ok ((skipGaps s).head?, skipGaps s) := rfl

theorem run_skip (c : Char) (s : List Char) : skip.run (c :: s) = .ok ((), s) := rfl

/-- Gaps in front do not matter. -/
def Lenient (r : Reader α) : Prop := ∀ g s, Gaps g → r.run (g ++ s) = r.run s

theorem lenient_peek (f : Option Char → Reader α) : Lenient (peek >>= f) := by
  intro g s hg
  show (f (skipGaps (g ++ s)).head?).run (skipGaps (g ++ s)) =
    (f (skipGaps s).head?).run (skipGaps s)
  rw [skipGaps_append hg]

theorem lenient_whole (lo hi : Int) (wanted : String) : (whole lo hi wanted).Lenient :=
  lenient_peek _

theorem lenient_flag (wanted : String) : (flag wanted).Lenient := lenient_peek _

theorem lenient_optional (r : Reader α) : (optional r).Lenient := lenient_peek _

theorem lenient_ignored : ignored.Lenient := by
  intro g s hg
  show (skipValue (g ++ s)).map _ = (skipValue s).map _
  rw [skipValue, skipOpen_gaps hg, ← skipValue]

theorem run_colon {g : List Char} (hg : Gaps g) (s : List Char) :
    colon.run (g ++ ':' :: s) = .ok ((), s) :=
  lenient_peek _ g (':' :: s) hg

/-- The reader takes the whole of a value, or does not take it at all. -/
def Exact (r : Reader α) (v : List Char) : Prop :=
  ∀ rest a rest', Over rest → r.run (v ++ rest) = .ok (a, rest') → rest' = rest

theorem Passes.exact {r : Reader α} {v : List Char} (h : r.Passes) (hv : IsValue v) :
    r.Exact v := by
  intro rest a rest' hrest hrun
  have hskip := h _ _ _ hrun
  rw [hv.skipValue_eq hrest] at hskip
  exact (Except.ok.inj hskip).symm

theorem reads_ignored {v : List Char} (hv : IsValue v) : ignored.Reads v () := by
  intro rest hrest
  show (skipValue (v ++ rest)).map _ = _
  rw [hv.skipValue_eq hrest]
  rfl

/-! ### Members -/

/-- One member after the other, each taking the result a step further. -/
inductive Chain (R : σ → List Char → List Char → σ → Prop) : σ → List Member → σ → Prop
  | nil (acc : σ) : Chain R acc [] acc
  | cons {acc next final : σ} {key value : List Char} {ms : List Member}
      (head : R acc key value next) (tail : Chain R next ms final) :
      Chain R acc (⟨some key, value⟩ :: ms) final

/-- In any surroundings the value, behind its key, takes the result from `acc` to `next`. -/
def Takes (member : σ → List Char → Reader σ) (acc : σ) (key value : List Char) (next : σ) : Prop :=
  ∀ g g' rest, Gaps g → Gaps g' → Over rest →
    (member acc key).run (g ++ ':' :: (g' ++ (value ++ rest))) = .ok (next, rest)

/-- In some surroundings it does. -/
def MayTake (member : σ → List Char → Reader σ) (acc : σ) (key value : List Char) (next : σ) :
    Prop :=
  ∃ g g' rest, Gaps g ∧ Gaps g' ∧ Over rest ∧
    (member acc key).run (g ++ ':' :: (g' ++ (value ++ rest))) = .ok (next, rest)

variable {member : σ → List Char → Reader σ} {acc final : σ} {ms : List Member}
  {g g' k rest rest' : List Char}

theorem nextKey_close (hg : Gaps g) (first : Bool) (rest : List Char) :
    nextKey first (g ++ '\x7d' :: rest) = .ok (none, rest) := by
  unfold nextKey
  rw [skipGaps_append hg, skipGaps_cons (by decide)]
  rfl

theorem nextKey_first (hg : Gaps g) (k s : List Char) :
    nextKey true (g ++ (quotedText k ++ s)) =
      (readText (k ++ '"' :: s)).map fun (k, rest) => (some k, rest) := by
  unfold nextKey
  simp only [quotedText, List.cons_append, List.append_assoc, List.nil_append]
  rw [skipGaps_append hg, skipGaps_cons (by decide)]
  rfl

theorem nextKey_comma (hg : Gaps g) (hg' : Gaps g') (k s : List Char) :
    nextKey false (g ++ ',' :: (g' ++ (quotedText k ++ s))) =
      (readText (k ++ '"' :: s)).map fun (k, rest) => (some k, rest) := by
  unfold nextKey
  rw [skipGaps_append hg, skipGaps_cons (by decide)]
  simp only [quotedText, List.cons_append, List.append_assoc, List.nil_append]
  rw [skipGaps_append hg', skipGaps_cons (by decide)]
  rfl

/-- A member whose key spells something is handed to `member`. -/
theorem readMembers_named {first : Bool} {key s u : List Char} (hk : Spells key k)
    (hkey : nextKey first s = (readText (k ++ '"' :: u)).map fun (k, rest) => (some k, rest)) :
    readMembers member first acc s =
      match (member acc key).run u with
      | .error e => .error e
      | .ok (next, rest) => readMembers member false next rest := by
  rw [hk.readText_eq] at hkey
  rw [readMembers_eq, hkey]
  rfl

/-- A member that is passed has a key that spells something. -/
theorem readMembers_eq_ok {first : Bool} {name : Option (List Char)} {s u : List Char}
    (hk : Key name k)
    (hkey : nextKey first s = (readText (k ++ '"' :: u)).map fun (k, rest) => (some k, rest))
    (h : readMembers member first acc s = .ok (final, rest')) :
    ∃ key next t, name = some key ∧ (member acc key).run u = .ok (next, t) ∧
      readMembers member false next t = .ok (final, rest') := by
  cases hread : readText (k ++ '"' :: u) with
  | error e =>
      rw [hread] at hkey
      rw [readMembers_eq, hkey] at h
      cases h
  | ok found =>
      obtain ⟨key, u'⟩ := found
      obtain ⟨rfl, rfl⟩ := hk.readText_eq_ok hread
      rw [hread] at hkey
      rw [readMembers_eq, hkey] at h
      simp only [Except.map] at h
      split at h
      · cases h
      · rename_i next t hrun
        exact ⟨key, next, t, rfl, hrun, h⟩

/-- The members after the first, each behind its comma. -/
theorem Chain.readMembers_more {t : List Char} (h : Chain (Takes member) acc ms final)
    (ht : More MemberText ms t) :
    readMembers member false acc (t ++ '\x7d' :: rest) = .ok (final, rest) := by
  induction ht generalizing acc with
  | nil hg =>
      cases h
      rw [readMembers_eq, nextKey_close hg]
  | @cons g g' p t m ms hg hg' hp ht ih =>
      obtain ⟨hk, hc, hc'⟩ := hp
      cases h with
      | cons head tail =>
          obtain ⟨hk⟩ := hk
          have hover : Over (t ++ '\x7d' :: rest) := ht.over (over_closer .object rest)
          simp only [List.append_assoc, List.cons_append]
          rw [readMembers_named hk (nextKey_comma hg hg' _ _), head _ _ _ hc hc' hover]
          exact ih tail

/-- **Members that take the result from step to step bring the loop to the end.** -/
theorem Chain.run_members {b : List Char} (h : Chain (Takes member) acc ms final)
    (hb : Items MemberText ms b) :
    (members member acc).run (b ++ '\x7d' :: rest) = .ok (final, rest) := by
  show readMembers member true acc _ = _
  cases hb with
  | nil hg =>
      cases h
      rw [readMembers_eq, nextKey_close hg]
  | @cons g p t m ms hg hp ht =>
      obtain ⟨hk, hc, hc'⟩ := hp
      cases h with
      | cons head tail =>
          obtain ⟨hk⟩ := hk
          have hover : Over (t ++ '\x7d' :: rest) := ht.over (over_closer .object rest)
          simp only [List.append_assoc, List.cons_append]
          rw [readMembers_named hk (nextKey_first hg _ _), head _ _ _ hc hc' hover]
          exact tail.readMembers_more ht

/-- A member that takes the value takes the whole of it. -/
def ExactMember (member : σ → List Char → Reader σ) (value : List Char) : Prop :=
  ∀ acc key g g' rest next rest', Gaps g → Gaps g' → Over rest →
    (member acc key).run (g ++ ':' :: (g' ++ (value ++ rest))) = .ok (next, rest') → rest' = rest

theorem chain_of_readMembers {t : List Char} (ht : More MemberText ms t)
    (hexact : ∀ m ∈ ms, ExactMember member m.value)
    (h : readMembers member false acc (t ++ '\x7d' :: rest) = .ok (final, rest')) :
    Chain (MayTake member) acc ms final ∧ rest' = rest := by
  induction ht generalizing acc with
  | nil hg =>
      rw [readMembers_eq, nextKey_close hg] at h
      cases h
      exact ⟨.nil _, rfl⟩
  | @cons g g' p t m ms hg hg' hp ht ih =>
      obtain ⟨hk, hc, hc'⟩ := hp
      obtain ⟨name, value⟩ := m
      have hover : Over (t ++ '\x7d' :: rest) := ht.over (over_closer .object rest)
      simp only [List.append_assoc, List.cons_append] at h
      obtain ⟨key, next, u, rfl, hrun, h⟩ := readMembers_eq_ok hk (nextKey_comma hg hg' _ _) h
      cases hexact _ List.mem_cons_self _ _ _ _ _ _ _ hc hc' hover hrun
      obtain ⟨tail, rfl⟩ := ih (fun m hm => hexact m (List.mem_cons_of_mem _ hm)) h
      exact ⟨.cons ⟨_, _, _, hc, hc', hover, hrun⟩ tail, rfl⟩

/-- **If the loop comes to an end, the members have taken the result there.** -/
theorem chain_of_run_members {b : List Char} (hb : Items MemberText ms b)
    (hexact : ∀ m ∈ ms, ExactMember member m.value)
    (h : (members member acc).run (b ++ '\x7d' :: rest) = .ok (final, rest')) :
    Chain (MayTake member) acc ms final ∧ rest' = rest := by
  replace h : readMembers member true acc (b ++ '\x7d' :: rest) = .ok (final, rest') := h
  cases hb with
  | nil hg =>
      rw [readMembers_eq, nextKey_close hg] at h
      cases h
      exact ⟨.nil _, rfl⟩
  | @cons g p t m ms hg hp ht =>
      obtain ⟨hk, hc, hc'⟩ := hp
      obtain ⟨name, value⟩ := m
      have hover : Over (t ++ '\x7d' :: rest) := ht.over (over_closer .object rest)
      simp only [List.append_assoc, List.cons_append] at h
      obtain ⟨key, next, u, rfl, hrun, h⟩ := readMembers_eq_ok hk (nextKey_first hg _ _) h
      cases hexact _ List.mem_cons_self _ _ _ _ _ _ _ hc hc' hover hrun
      obtain ⟨tail, rfl⟩ := chain_of_readMembers ht
        (fun m hm => hexact m (List.mem_cons_of_mem _ hm)) h
      exact ⟨.cons ⟨_, _, _, hc, hc', hover, hrun⟩ tail, rfl⟩

/-! ### Items -/

variable {r : Reader α} {vs : List (List Char)} {v t : List Char}

/-- At the end of a list there is no next item, whether one came before or not. -/
theorem item_close (hg : Gaps g) (first : Bool) (r : Reader α) (rest : List Char) :
    (item first r).run (g ++ ']' :: rest) = .ok (none, ']' :: rest) :=
  lenient_peek _ g (']' :: rest) hg

theorem item_first (hv : IsValue v) (hg : Gaps g) (s : List Char) :
    (item true r).run (g ++ (v ++ s)) = (r >>= fun a => pure (some a)).run (v ++ s) := by
  obtain ⟨c, v, rfl, hc, hne⟩ := hv.exists_cons
  have hgap := skipGaps_cons hc (v ++ s)
  refine (lenient_peek _ g (c :: v ++ s) hg).trans ?_
  rw [List.cons_append, run_bind]
  simp only [peek, hgap, List.head?_cons, if_neg hne, if_true]

theorem item_next (hv : IsValue v) (hg : Gaps g) (hg' : Gaps g') (s : List Char) :
    (item false r).run (g ++ ',' :: (g' ++ (v ++ s))) =
      (r >>= fun a => pure (some a)).run (v ++ s) := by
  obtain ⟨c, v, rfl, hc, hne⟩ := hv.exists_cons
  rw [List.cons_append]
  have hgap : skipGaps (g' ++ c :: (v ++ s)) = c :: (v ++ s) := by
    rw [skipGaps_append hg', skipGaps_cons hc]
  have hcomma := skipGaps_cons (c := ',') (by decide) (g' ++ c :: (v ++ s))
  have hnot : ¬ ',' = ']' := by decide
  refine (lenient_peek _ g _ hg).trans ?_
  simp only [run_bind, run_peek, hcomma, List.head?_cons, if_neg hnot, Bool.false_eq_true, if_false,
    if_true, run_skip, hgap]

theorem endOfItems_close (hg : Gaps g) (rest : List Char) :
    endOfItems.run (g ++ ']' :: rest) = .ok ((), rest) :=
  lenient_peek _ g (']' :: rest) hg

theorem endOfItems_comma (hg : Gaps g) (s : List Char) :
    ∃ e, endOfItems.run (g ++ ',' :: s) = .error e := by
  have hcomma := skipGaps_cons (c := ',') (by decide) s
  have hrun : endOfItems.run (g ++ ',' :: s) = endOfItems.run (',' :: s) := lenient_peek _ g _ hg
  rw [hrun, endOfItems]
  simp only [run_bind, run_peek, hcomma, List.head?_cons, run_skip]
  split <;> exact ⟨_, rfl⟩

/-- A list with more items than are wanted is not read. -/
theorem endOfItems_eq_ok (ht : More (· = ·) vs t) {u : Unit}
    (h : endOfItems.run (t ++ ']' :: rest) = .ok (u, rest')) : vs = [] ∧ rest' = rest := by
  cases ht with
  | nil hg =>
      rw [endOfItems_close hg] at h
      cases h
      exact ⟨rfl, rfl⟩
  | cons hg =>
      rw [List.append_assoc, List.cons_append] at h
      obtain ⟨e, he⟩ := endOfItems_comma hg _
      rw [he] at h
      cases h

/-- The next item of a list, if there is one, and those that are left. -/
inductive Slot (r : Reader α) : List (List Char) → Option α → List (List Char) → Prop
  | empty : Slot r [] none []
  | filled {a : α} {v : List Char} {vs : List (List Char)} (hv : IsValue v) (h : r.Reads v a) :
      Slot r (v :: vs) (some a) vs

variable {o : Option α} {vs' : List (List Char)}

theorem Slot.run_first {b : List Char} (h : Slot r vs o vs') (hb : Items (· = ·) vs b) :
    ∃ t, More (· = ·) vs' t ∧
      ∀ rest, (item true r).run (b ++ ']' :: rest) = .ok (o, t ++ ']' :: rest) := by
  cases h with
  | empty =>
      obtain ⟨hg⟩ := hb
      exact ⟨[], .nil gaps_nil, fun rest => item_close hg true r rest⟩
  | filled hv h =>
      cases hb with
      | @cons g p t _ _ hg hp ht =>
          cases hp
          refine ⟨t, ht, fun rest => ?_⟩
          have hover : Over (t ++ ']' :: rest) := ht.over (over_closer .list rest)
          rw [List.append_assoc, List.append_assoc, item_first hv hg]
          exact h.map some _ hover

theorem Slot.run_next (h : Slot r vs o vs') (ht : More (· = ·) vs t) :
    ∃ t', More (· = ·) vs' t' ∧
      ∀ rest, (item false r).run (t ++ ']' :: rest) = .ok (o, t' ++ ']' :: rest) := by
  cases h with
  | empty =>
      obtain ⟨hg⟩ := ht
      exact ⟨[], .nil gaps_nil, fun rest => item_close hg false r rest⟩
  | filled hv h =>
      cases ht with
      | @cons g g' p t' _ _ hg hg' hp ht =>
          cases hp
          refine ⟨t', ht, fun rest => ?_⟩
          have hover : Over (t' ++ ']' :: rest) := ht.over (over_closer .list rest)
          simp only [List.append_assoc, List.cons_append]
          rw [item_next hv hg hg']
          exact h.map some _ hover

/-- An item that is there is read to its end, and the list goes on behind it. -/
theorem Exact.of_item {u : List Char} (hexact : r.Exact v) (ht : More (· = ·) vs t)
    (h : (r >>= fun a => pure (some a)).run (v ++ (t ++ ']' :: rest)) = .ok (o, u)) :
    u = t ++ ']' :: rest ∧ ∃ a, r.run (v ++ u) = .ok (a, u) := by
  obtain ⟨a, u, hrun, h⟩ := ok_of_run_bind h
  cases h
  obtain rfl := hexact _ _ _ (ht.over (over_closer .list rest)) hrun
  exact ⟨rfl, a, hrun⟩

theorem item_first_eq_ok {b u : List Char} (hb : Items (· = ·) vs b)
    (hvs : ∀ v ∈ vs, IsValue v ∧ r.Exact v)
    (h : (item true r).run (b ++ ']' :: rest) = .ok (o, u)) :
    (∃ t, More (· = ·) vs.tail t ∧ u = t ++ ']' :: rest) ∧
      ∀ v ∈ vs.head?, ∃ a, r.run (v ++ u) = .ok (a, u) := by
  cases hb with
  | nil hg =>
      rw [item_close hg] at h
      cases h
      exact ⟨⟨[], .nil gaps_nil, rfl⟩, fun _ hv => nomatch hv⟩
  | @cons g p t v vs hg hp ht =>
      cases hp
      obtain ⟨hv, hexact⟩ := hvs _ List.mem_cons_self
      rw [List.append_assoc, List.append_assoc, item_first hv hg] at h
      obtain ⟨hu, hrun⟩ := hexact.of_item ht h
      exact ⟨⟨t, ht, hu⟩, fun w hw => Option.some.inj hw ▸ hrun⟩

theorem item_next_eq_ok {u : List Char} (ht : More (· = ·) vs t)
    (hvs : ∀ v ∈ vs, IsValue v ∧ r.Exact v)
    (h : (item false r).run (t ++ ']' :: rest) = .ok (o, u)) :
    (∃ t', More (· = ·) vs.tail t' ∧ u = t' ++ ']' :: rest) ∧
      ∀ v ∈ vs.head?, ∃ a, r.run (v ++ u) = .ok (a, u) := by
  cases ht with
  | nil hg =>
      rw [item_close hg] at h
      cases h
      exact ⟨⟨[], .nil gaps_nil, rfl⟩, fun _ hv => nomatch hv⟩
  | @cons g g' p t v vs hg hg' hp ht =>
      cases hp
      obtain ⟨hv, hexact⟩ := hvs _ List.mem_cons_self
      simp only [List.append_assoc, List.cons_append] at h
      rw [item_next hv hg hg'] at h
      obtain ⟨hu, hrun⟩ := hexact.of_item ht h
      exact ⟨⟨t, ht, hu⟩, fun w hw => Option.some.inj hw ▸ hrun⟩

end Reader

/-- A value that starts like a list is one. -/
theorem IsValue.listText {s : List Char} (h : IsValue ('[' :: s)) :
    ∃ vs, ListText vs ('[' :: s) ∧ ∀ v ∈ vs, IsValue v := by
  generalize hv : '[' :: s = v at h
  cases h with
  | null => cases (List.cons.inj hv).1
  | flag b => cases b <;> cases (List.cons.inj hv).1
  | number h =>
      obtain ⟨c, u, rfl, hc⟩ := h.exists_cons
      exact absurd hc (by rw [← (List.cons.inj hv).1]; decide)
  | minus h => cases (List.cons.inj hv).1
  | text h => cases (List.cons.inj hv).1
  | list ht h => exact ⟨_, ht, h⟩
  | object ht h =>
      obtain ⟨b, -, rfl⟩ := ht
      cases (List.cons.inj hv).1

/-- A value that starts like an object is one. -/
theorem IsValue.objectText {s : List Char} (h : IsValue ('\x7b' :: s)) :
    ∃ ms, ObjectText ms ('\x7b' :: s) ∧ ∀ m ∈ ms, IsValue m.value := by
  generalize hv : '\x7b' :: s = v at h
  cases h with
  | null => cases (List.cons.inj hv).1
  | flag b => cases b <;> cases (List.cons.inj hv).1
  | number h =>
      obtain ⟨c, u, rfl, hc⟩ := h.exists_cons
      exact absurd hc (by rw [← (List.cons.inj hv).1]; decide)
  | minus h => cases (List.cons.inj hv).1
  | text h => cases (List.cons.inj hv).1
  | list ht h =>
      obtain ⟨b, -, rfl⟩ := ht
      cases (List.cons.inj hv).1
  | object ht h => exact ⟨_, ht, h⟩

end Document

end Rollover
