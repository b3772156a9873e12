import SpatialAudio.Node.SamplePlayer

/-!
# Proofs/SampleBySample — the copy loop of a player is playback of one sample after the other

`play` iterates the reference `step`.  Copying a run of samples that does not reach behind their end
is that many steps (`play_run`), and so is filling up with silence once they have ended
(`play_of_ended`).

`Copies` is the copy loop itself, one constructor for each way a round can go.  Wherever the loop
subtracts, the constructor has a sum instead, so a derivation is a run of the loop in which nothing
underflows, and its length is the number of rounds.  `fill` finds such a run (`copies_fill`), and
every such run copies what `play` plays (`Copies.eq_play`).  Since `play` adds up
(`play_add`), the same holds from block to block (`stream_of_steady`).
-/

namespace SpatialAudio

namespace SamplePlayer

variable {samples : Array Float32} {looping : Bool}

/-! ## One sample after the other -/

/-- The next `count` samples and the position behind them, one step at a time. -/
def play (samples : Array Float32) (looping : Bool) : (count position : Nat) → List Float32 × Nat
  | 0, position => ([], position)
  | count + 1, position =>
    let (sample, next) := step samples looping position
    let (rest, stop) := play samples looping count next
    (sample :: rest, stop)

theorem play_succ (count position : Nat) :
    play samples looping (count + 1) position =
      ((step samples looping position).1 ::
          (play samples looping count (step samples looping position).2).1,
        (play samples looping count (step samples looping position).2).2) := rfl

theorem length_play (count position : Nat) :
    (play samples looping count position).1.length = count := by
  induction count generalizing position with
  | zero => rfl
  | succ count ih => rw [play_succ, List.length_cons, ih]

/-- **Playback adds up.** -/
theorem play_add (m n position : Nat) :
    play samples looping (m + n) position =
      ((play samples looping m position).1 ++
          (play samples looping n (play samples looping m position).2).1,
        (play samples looping n (play samples looping m position).2).2) := by
  induction m generalizing position with
  | zero => rw [Nat.zero_add]; rfl
  | succ m ih => rw [Nat.succ_add, play_succ, ih, play_succ, List.cons_append]

theorem step_of_lt {position : Nat} (h : position < samples.size) :
    step samples looping position = (samples.getD position 0, position + 1) := if_pos h

/-- Behind the samples a loop goes on with the first of them. -/
theorem step_of_looping {position : Nat} (hend : samples.size ≤ position) (hloop : looping = true)
    (hsome : 0 < samples.size) : step samples looping position = step samples looping 0 := by
  rw [step_of_lt hsome, step, if_neg (Nat.not_lt.mpr hend), if_pos (by simp [hloop, hsome])]

theorem step_of_ended {position : Nat} (hend : samples.size ≤ position)
    (hquiet : ¬(looping = true ∧ 0 < samples.size)) :
    step samples looping position = (0, position) := by
  rw [step, if_neg (Nat.not_lt.mpr hend), if_neg (by simpa using hquiet)]

theorem step_le {position : Nat} (h : position ≤ samples.size) :
    (step samples looping position).2 ≤ samples.size := by
  rcases Nat.lt_or_ge position samples.size with hlt | hend
  · rw [step_of_lt hlt]
    exact hlt
  · by_cases hloop : looping = true ∧ 0 < samples.size
    · rw [step_of_looping hend hloop.1 hloop.2, step_of_lt hloop.2]
      exact hloop.2
    · rw [step_of_ended hend hloop]
      exact h

/-- **Playback does not leave the samples.** -/
theorem play_le (count : Nat) {position : Nat} (h : position ≤ samples.size) :
    (play samples looping count position).2 ≤ samples.size := by
  induction count generalizing position with
  | zero => exact h
  | succ count ih => exact ih (step_le h)

/-- **A run within the samples is played as it stands.** -/
theorem play_run (count : Nat) {position : Nat} (h : position + count ≤ samples.size) :
    play samples looping count position =
      ((samples.extract position (position + count)).toList, position + count) := by
  induction count generalizing position with
  | zero => simp [play]
  | succ count ih =>
    have hlt : position < samples.size := by omega
    have hcons : (samples.extract position (position + (count + 1))).toList =
        samples.getD position 0 ::
          (samples.extract (position + 1) (position + 1 + count)).toList := by
      rw [Array.toList_extract, Array.toList_extract, List.extract_eq_take_drop,
        List.extract_eq_take_drop, List.drop_eq_getElem_cons (by simpa using hlt),
        Array.getD_eq_getD_getElem?, Array.getElem?_eq_getElem hlt]
      simp [show position + (count + 1) - position = count + 1 by omega]
    rw [play_succ, step_of_lt hlt, ih (by omega), hcons]
    congr 1
    omega

/-- **After the end there is silence**, and the position stays. -/
theorem play_of_ended (count : Nat) {position : Nat} (hend : samples.size ≤ position)
    (hquiet : ¬(looping = true ∧ 0 < samples.size)) :
    play samples looping count position = (List.replicate count 0, position) := by
  induction count with
  | zero => rfl
  | succ count ih => rw [play_succ, step_of_ended hend hquiet, ih, List.replicate_succ]

theorem play_of_looping {count position : Nat} (hcount : 0 < count)
    (hend : samples.size ≤ position) (hloop : looping = true) (hsome : 0 < samples.size) :
    play samples looping count position = play samples looping count 0 := by
  obtain ⟨count, rfl⟩ := Nat.exists_eq_add_of_lt hcount
  rw [Nat.zero_add, play_succ, play_succ, step_of_looping hend hloop hsome]

/-! ## The copy loop -/

/-- Where a round that finds samples copies from: behind the end of the samples a loop starts
again. -/
def Resumes (samples : Array Float32) (looping : Bool) (position start : Nat) : Prop :=
  (position < samples.size ∧ start = position) ∨
    (samples.size ≤ position ∧ looping = true ∧ 0 < samples.size ∧ start = 0)

/-- The rounds of the copy loop: in `rounds` rounds it writes `room` samples, of which `copied` is
the list, and leaves the position at `stop`. -/
inductive Copies (samples : Array Float32) (looping : Bool) :
    (rounds room position : Nat) → (copied : List Float32) → (stop : Nat) → Prop
  /-- The block is full. -/
  | full (position : Nat) : Copies samples looping 0 0 position [] position
  /-- The samples have ended: the rest of the block is filled with silence. -/
  | silent {room position : Nat} (hroom : 0 < room) (hend : samples.size ≤ position)
      (hquiet : ¬(looping = true ∧ 0 < samples.size)) :
      Copies samples looping 1 room position (List.replicate room 0) position
  /-- A run of `n` samples is copied, which leaves room for `more`; there were `left` samples up to
  the end. -/
  | run {rounds room position start left n more stop : Nat} {copied : List Float32}
      (hroom : 0 < room) (hstart : Resumes samples looping position start)
      (hleft : start + left = samples.size) (hn : n = min room left) (hmore : n + more = room)
      (hrest : Copies samples looping rounds more (start + n) copied stop) :
      Copies samples looping (rounds + 1) room position
        ((samples.extract start (start + n)).toList ++ copied) stop

theorem Resumes.lt {position start : Nat} (h : Resumes samples looping position start) :
    start < samples.size := by
  rcases h with ⟨hlt, rfl⟩ | ⟨-, -, hsome, rfl⟩
  · exact hlt
  · exact hsome

theorem Resumes.play {count position start : Nat} (h : Resumes samples looping position start)
    (hcount : 0 < count) :
    play samples looping count position = play samples looping count start := by
  rcases h with ⟨-, rfl⟩ | ⟨hend, hloop, hsome, rfl⟩
  · rfl
  · exact play_of_looping hcount hend hloop hsome

/-- **However the loop goes, it copies what is played.**  The induction is on the rounds: the run
that a round copies and the rounds behind it are played one after the other. -/
theorem Copies.eq_play {rounds room position stop : Nat} {copied : List Float32}
    (h : Copies samples looping rounds room position copied stop) :
    play samples looping room position = (copied, stop) := by
  induction h with
  | full position => rfl
  | silent _ hend hquiet => exact play_of_ended _ hend hquiet
  | @run rounds room position start left n more stop copied hroom hstart hleft hn hmore _ ih =>
    have hwithin : start + n ≤ samples.size := by omega
    rw [hstart.play hroom, ← hmore, play_add, play_run n hwithin, ih]

/-- **The loop ends**: each round leaves less room, so there are no more rounds than room, and
`fill` is what they copy. -/
theorem copies_fill (samples : Array Float32) (looping : Bool) (runs : Nat) {room : Nat}
    (position : Nat) (h : room ≤ runs) :
    ∃ rounds ≤ room, Copies samples looping rounds room position
      (fill samples looping runs room position).1 (fill samples looping runs room position).2 := by
  induction runs generalizing room position with
  | zero =>
    obtain rfl := Nat.le_zero.mp h
    exact ⟨0, Nat.le_refl _, .full position⟩
  | succ runs ih =>
    rcases Nat.eq_zero_or_pos room with rfl | hroom
    · exact ⟨0, Nat.le_refl _, .full position⟩
    rw [fill, if_neg (Nat.ne_of_gt hroom)]
    by_cases hquiet : samples.size ≤ position ∧ ¬(looping = true ∧ 0 < samples.size)
    · rw [if_pos (by grind)]
      exact ⟨1, hroom, .silent hroom hquiet.1 hquiet.2⟩
    · rw [if_neg (by grind)]
      have hstart : Resumes samples looping position
          (if samples.size ≤ position then 0 else position) := by
        split
        · rename_i hend
          have hloop := Classical.not_not.mp fun hloop => hquiet ⟨hend, hloop⟩
          exact .inr ⟨hend, hloop.1, hloop.2, rfl⟩
        · rename_i hlt
          exact .inl ⟨Nat.not_le.mp hlt, rfl⟩
      have hlt := hstart.lt
      generalize (if samples.size ≤ position then 0 else position) = start at hstart hlt
      have hmore : room - min room (samples.size - start) ≤ runs := by omega
      obtain ⟨rounds, hrounds, hrest⟩ := ih (start + min room (samples.size - start)) hmore
      exact ⟨rounds + 1, by omega,
        .run hroom hstart (Nat.add_sub_cancel' (Nat.le_of_lt hlt)) rfl (by omega) hrest⟩

/-- **A block holds as many samples as are played one by one.** -/
theorem fill_eq_play (runs : Nat) {room : Nat} (position : Nat) (h : room ≤ runs) :
    fill samples looping runs room position = play samples looping room position := by
  obtain ⟨_, -, hcopies⟩ := copies_fill samples looping runs position h
  exact hcopies.eq_play.symm

end SamplePlayer

theorem Block.toList_ofList {samples : List Float32} (h : samples.length = blockSize) :
    (Block.ofList samples).toList = samples := by
  refine List.ext_getElem (by simp [h]) fun i _ _ => ?_
  simp [Block.ofList, Array.getD_eq_getD_getElem?, h]

namespace SamplePlayer

/-! ## From block to block -/

/-- What a player is given for one block. -/
structure Request where
  properties : Properties
  outputs : List Block

variable {p : SamplePlayer} {rate : Nat} {looping : Bool} {r : Request} {rs : List Request}

/-- A player after blocks. -/
def after (rate : Nat) (p : SamplePlayer) (rs : List Request) : SamplePlayer :=
  rs.foldl (fun p r => (p.process rate r.properties r.outputs).1) p

/-- The samples of a player's first output, block after block. -/
def stream (rate : Nat) (p : SamplePlayer) : List Request → List Float32
  | [] => []
  | r :: rs =>
    let (p, outputs) := p.process rate r.properties r.outputs
    ((outputs.head?.map Vector.toList).getD []) ++ stream rate p rs

/-- A seek only moves the position. -/
theorem seek_eq (props : Properties) :
    p.seek rate props = { p with position := (p.seek rate props).position } := by
  rw [seek]
  split <;> rfl

/-- A seek ends within the samples. -/
theorem seek_le (rate : Nat) (props : Properties) (h : p.position ≤ p.samples.size) :
    (p.seek rate props).position ≤ p.samples.size := by
  rw [seek]
  split
  · exact Nat.min_le_right _ _
  · exact h

/-- **A block that has an output**, as playback from where the player seeks. -/
theorem process_cons (props : Properties) (out : Block) (rest : List Block) :
    p.process rate props (out :: rest) =
      ({ p with position :=
          (play p.samples (props.flag .looping) blockSize (p.seek rate props).position).2 },
        Block.ofList
          (play p.samples (props.flag .looping) blockSize (p.seek rate props).position).1 ::
            rest) := by
  rw [process, seek_eq]
  simp only [fill_eq_play blockSize _ (Nat.le_refl _)]

/-- **A block only moves the position, and not out of the samples.** -/
theorem exists_process (rate : Nat) (h : p.position ≤ p.samples.size) (r : Request) :
    ∃ position ≤ p.samples.size,
      (p.process rate r.properties r.outputs).1 = { p with position } := by
  have hseek := seek_le rate r.properties h
  cases houtputs : r.outputs with
  | nil => exact ⟨_, hseek, seek_eq r.properties⟩
  | cons out rest =>
    rw [process_cons]
    exact ⟨_, play_le blockSize hseek, rfl⟩

theorem exists_after (rate : Nat) (h : p.position ≤ p.samples.size) (rs : List Request) :
    ∃ position ≤ p.samples.size, p.after rate rs = { p with position } := by
  induction rs generalizing p with
  | nil => exact ⟨p.position, h, rfl⟩
  | cons r rs ih =>
    obtain ⟨next, hnext, hprocess⟩ := exists_process rate h r
    obtain ⟨position, hposition, hafter⟩ := ih (p := { p with position := next }) hnext
    refine ⟨position, hposition, ?_⟩
    rw [after, List.foldl_cons, hprocess]
    exact hafter

/-! ## Without seeks -/

/-- A block with an output and without a seek. -/
def Request.Steady (looping : Bool) (r : Request) : Prop :=
  r.properties.wasModified .position = false ∧ r.properties.flag .looping = looping ∧ r.outputs ≠ []

theorem process_of_steady (p : SamplePlayer) (rate : Nat) (h : r.Steady looping) :
    ∃ rest, p.process rate r.properties r.outputs =
      ({ p with position := (play p.samples looping blockSize p.position).2 },
        Block.ofList (play p.samples looping blockSize p.position).1 :: rest) := by
  obtain ⟨hstill, rfl, houtputs⟩ := h
  obtain ⟨out, rest, houtputs⟩ := List.exists_cons_of_ne_nil houtputs
  refine ⟨rest, ?_⟩
  rw [houtputs, process_cons, seek, if_neg (by simp [hstill])]

/-- **Steady blocks join seamlessly**: together they are one piece of playback. -/
theorem stream_of_steady (h : ∀ r ∈ rs, r.Steady looping) :
    p.stream rate rs = (play p.samples looping (blockSize * rs.length) p.position).1 := by
  induction rs generalizing p with
  | nil => rfl
  | cons r rs ih =>
    obtain ⟨rest, hprocess⟩ := process_of_steady p rate (h r List.mem_cons_self)
    have hlength : blockSize * (r :: rs).length = blockSize + blockSize * rs.length := by
      rw [List.length_cons, Nat.mul_succ, Nat.add_comm]
    rw [stream, hprocess, hlength, play_add]
    simp only [List.head?_cons, Option.map_some, Option.getD_some]
    rw [Block.toList_ofList (length_play ..), ih fun r hr => h r (List.mem_cons_of_mem _ hr)]

variable {samples : Array Float32}

/-- Playback once: the samples from the position on, and then zeros. -/
theorem getElem?_play_once {count position n : Nat} (hn : n < count) :
    (play samples false count position).1[n]? = some (samples.getD (position + n) 0) := by
  induction count generalizing position n with
  | zero => exact absurd hn (Nat.not_lt_zero n)
  | succ count ih =>
    rw [play_succ]
    rcases Nat.lt_or_ge position samples.size with hlt | hend
    · rw [step_of_lt hlt]
      cases n with
      | zero => rfl
      | succ n =>
        rw [List.getElem?_cons_succ, ih (Nat.lt_of_succ_lt_succ hn), Nat.succ_add_eq_add_succ]
    · rw [step_of_ended hend (by simp)]
      have hzero (m : Nat) : samples.getD (position + m) 0 = 0 := by
        rw [Array.getD_eq_getD_getElem?, Array.getElem?_eq_none (Nat.le_add_right_of_le hend)]
        rfl
      cases n with
      | zero => exact congrArg some (hzero 0).symm
      | succ n => rw [List.getElem?_cons_succ, ih (Nat.lt_of_succ_lt_succ hn), hzero, hzero]

/-- Playback in a loop: the samples from the position on, over and over. -/
theorem getElem?_play_looping {count position n : Nat} (hposition : position ≤ samples.size)
    (hn : n < count) :
    (play samples true count position).1[n]? =
      some (samples.getD ((position + n) % samples.size) 0) := by
  rcases Nat.eq_zero_or_pos samples.size with hnone | hsome
  · rw [play_of_ended count (by omega) (by simp [hnone]), hnone, Nat.mod_zero,
      Array.getD_eq_getD_getElem?, Array.getElem?_eq_none (by omega)]
    simp [hn]
  induction count generalizing position n with
  | zero => exact absurd hn (Nat.not_lt_zero n)
  | succ count ih =>
    rw [play_succ]
    rcases Nat.lt_or_ge position samples.size with hlt | hend
    · rw [step_of_lt hlt]
      cases n with
      | zero => exact congrArg (fun i => some (samples.getD i 0)) (Nat.mod_eq_of_lt hlt).symm
      | succ n =>
        rw [List.getElem?_cons_succ, ih hlt (Nat.lt_of_succ_lt_succ hn), Nat.succ_add_eq_add_succ]
    · obtain rfl : position = samples.size := Nat.le_antisymm hposition hend
      rw [step_of_looping (Nat.le_refl _) rfl hsome, step_of_lt hsome, Nat.add_mod_left]
      cases n with
      | zero => rw [Nat.zero_mod]; rfl
      | succ n =>
        rw [List.getElem?_cons_succ, ih (Nat.succ_le_of_lt hsome) (Nat.lt_of_succ_lt_succ hn),
          Nat.succ_eq_add_one, Nat.zero_add, Nat.add_comm]

/-- **One block of a player**: where it starts, the rounds of its copy loop, and what it leaves. -/
theorem process_sample_by_sample (hposition : p.position ≤ p.samples.size) (props : Properties)
    (out : Block) (rest : List Block) :
    ∃ start copied stop rounds,
      start = (if props.wasModified .position then p.frameAt rate (props.float .position)
        else p.position) ∧
      start ≤ p.samples.size ∧
      rounds ≤ blockSize ∧
      Copies p.samples (props.flag .looping) rounds blockSize start copied stop ∧
      play p.samples (props.flag .looping) blockSize start = (copied, stop) ∧
      stop ≤ p.samples.size ∧
      ∃ block, p.process rate props (out :: rest) = ({ p with position := stop }, block :: rest) ∧
        block.toList = copied := by
  have hstart : (p.seek rate props).position =
      if props.wasModified .position then p.frameAt rate (props.float .position)
        else p.position := by
    rw [seek, apply_ite position]
  have hwithin := seek_le rate props hposition
  obtain ⟨rounds, hrounds, hcopies⟩ := copies_fill p.samples (props.flag .looping) blockSize
    (p.seek rate props).position (Nat.le_refl _)
  rw [fill_eq_play blockSize _ (Nat.le_refl _)] at hcopies
  exact ⟨_, _, _, rounds, hstart, hwithin, hrounds, hcopies, rfl, play_le blockSize hwithin, _,
    process_cons .., Block.toList_ofList (length_play ..)⟩

/-- **A player plays its samples one after the other.**  Whatever blocks came before, only its
position has moved, and is among the samples or just behind them; a block that has an output ends
the copy loop after at most as many rounds as it has samples, without an underflow, and holds what
as many reference steps play from where the player seeks; and blocks without a seek join to the
samples from the position on, once or over and over. -/
theorem plays_sample_by_sample (p : SamplePlayer) (rate : Nat)
    (hposition : p.position ≤ p.samples.size) (rs : List Request) :
    (∃ position ≤ p.samples.size,
      p.after rate rs = { p with position } ∧
      ∀ props : Properties, ∀ out : Block, ∀ rest : List Block,
        ∃ start copied stop rounds,
          start = (if props.wasModified .position then p.frameAt rate (props.float .position)
            else position) ∧
          start ≤ p.samples.size ∧
          rounds ≤ blockSize ∧
          Copies p.samples (props.flag .looping) rounds blockSize start copied stop ∧
          play p.samples (props.flag .looping) blockSize start = (copied, stop) ∧
          stop ≤ p.samples.size ∧
          ∃ block, (p.after rate rs).process rate props (out :: rest) =
              ({ p with position := stop }, block :: rest) ∧
            block.toList = copied) ∧
    (∀ looping, (∀ r ∈ rs, r.Steady looping) → ∀ n < blockSize * rs.length,
      (p.stream rate rs)[n]? = some (p.samples.getD
        (if looping then (p.position + n) % p.samples.size else p.position + n) 0)) := by
  obtain ⟨position, hwithin, hafter⟩ := exists_after rate hposition rs
  refine ⟨⟨position, hwithin, hafter, ?_⟩, fun looping hsteady n hn => ?_⟩
  · rw [hafter]
    exact process_sample_by_sample (p := { p with position }) hwithin
  · rw [stream_of_steady hsteady]
    cases looping with
    | false => exact getElem?_play_once hn
    | true => exact getElem?_play_looping hposition hn

/-- Two blocks of three samples in a loop: sample 127 is the second of them. -/
theorem plays_sample_by_sample_three :
    (⟨#[1, 2, 3], 100, 0⟩ : SamplePlayer).position ≤ 3 ∧
      ((⟨#[1, 2, 3], 100, 0⟩ : SamplePlayer).stream 100 (List.replicate 2
        ⟨properties.modify .looping (·.store (.int 1)) |>.clearModified, [Block.silent]⟩))[127]? =
          some 2 := by
  refine ⟨by decide, ?_⟩
  refine (plays_sample_by_sample ⟨#[1, 2, 3], 100, 0⟩ 100 (by decide) _).2 true
    (fun r hr => ?_) 127 (by decide)
  obtain rfl := List.eq_of_mem_replicate hr
  exact ⟨by decide +kernel, by decide +kernel, List.cons_ne_nil _ _⟩

end SamplePlayer

end SpatialAudio
