import TradeStream.ParamConfigs

/-! `GAEngineFactoryImpl.createGenotype` and `GenotypeConverterImpl`: from the specs of
a `ParamConfig` to a genotype, and from the genotypes evolved out of it to parameters. -/
namespace TradeStream.Discovery
open TradeStream.Configurable

/-- Which ranges the chromosome classes of Jenetics take without an exception. -/
structure Jenetics where
  acceptsInteger : Int32 → Int32 → Bool
  acceptsDouble : ℚ → ℚ → Bool

/-- The alleles drawn at random in one run: one for each place and range. -/
structure Draws where
  integer : ℕ → Int32 → Int32 → Int32
  double : ℕ → ℚ → ℚ → ℚ

namespace Jenetics
variable (jenetics : Jenetics) (draws : Draws)

/-- `IntegerChromosome.of(min, max)`. -/
def integerChromosome (place : ℕ) (min max : Int32) : Option (NumericChromosome Int32) :=
  if jenetics.acceptsInteger min max then some ⟨min, max, draws.integer place min max⟩
  else none

/-- `DoubleChromosome.of(min, max)`. -/
def doubleChromosome (place : ℕ) (min max : ℚ) : Option (NumericChromosome ℚ) :=
  if jenetics.acceptsDouble min max then some ⟨min, max, draws.double place min max⟩
  else none

/-- The ranges of a spec that a chromosome can be made from. -/
def Accepts : ChromosomeSpec → Prop
  | .integer range => jenetics.acceptsInteger range.fst range.snd
  | .double range => jenetics.acceptsDouble range.fst range.snd

end Jenetics

/-- `Genotype.of`: chromosomes of one gene type, never none. -/
inductive Genotype where
  | integers (cs : List (NumericChromosome Int32)) (ne : cs ≠ [])
  | doubles (cs : List (NumericChromosome ℚ)) (ne : cs ≠ [])

namespace Genotype

def chromosomes : Genotype → List Chromosome
  | integers cs _ => cs.map .integer
  | doubles cs _ => cs.map .double

def ofIntegers (cs : List (NumericChromosome Int32)) : Option Genotype :=
  if h : cs ≠ [] then some (integers cs h) else none

def ofDoubles (cs : List (NumericChromosome ℚ)) : Option Genotype :=
  if h : cs ≠ [] then some (doubles cs h) else none

end Genotype

section
variable (jenetics : Jenetics) (draws : Draws)

def ChromosomeSpec.createChromosome (place : ℕ) : ChromosomeSpec → Option Chromosome
  | .integer range =>
    (jenetics.integerChromosome draws place range.fst range.snd).map .integer
  | .double range => (jenetics.doubleChromosome draws place range.fst range.snd).map .double

/-- `initialChromosomes`, from a place on. -/
def initialChromosomes : ℕ → List ChromosomeSpec → Option (List Chromosome)
  | _, [] => some []
  | place, spec :: specs => do
    let c ← spec.createChromosome jenetics draws place
    let cs ← initialChromosomes (place + 1) specs
    some (c :: cs)

/-- The chromosomes as double ones. Another's range goes from its allele to twice that. -/
def toDoubleChromosomes : ℕ → List Chromosome → Option (List (NumericChromosome ℚ))
  | _, [] => some []
  | place, c :: chromosomes => do
    let d ← match c with
      | .double d => some d
      | .integer _ => jenetics.doubleChromosome draws place c.doubleValue (c.doubleValue * 2)
    let ds ← toDoubleChromosomes (place + 1) chromosomes
    some (d :: ds)

/-- The chromosomes as integer ones. Another's range goes from its allele to twice that. -/
def toIntegerChromosomes : ℕ → List Chromosome → Option (List (NumericChromosome Int32))
  | _, [] => some []
  | place, c :: chromosomes => do
    let d ← match c with
      | .integer d => some d
      | .double _ =>
        jenetics.integerChromosome draws place (toInt32 c.doubleValue)
          (toInt32 c.doubleValue * 2)
    let ds ← toIntegerChromosomes (place + 1) chromosomes
    some (d :: ds)

/-- `Genotype.of(DoubleChromosome.of(0.0, 1.0))`. -/
def defaultGenotype (place : ℕ) : Option Genotype := do
  let c ← jenetics.doubleChromosome draws place 0 1
  Genotype.ofDoubles [c]

/-- `createGenotype`. `none` stands for an exception, which only the last chromosome,
made in the handler itself, can still throw. -/
def createGenotype (config : ParamConfig) : Option Genotype :=
  (do
    let chromosomes ← initialChromosomes jenetics draws 0 config.getChromosomeSpecs
    let place := chromosomes.length
    match chromosomes with
    | [] => defaultGenotype jenetics draws place
    | .double _ :: _ =>
      (toDoubleChromosomes jenetics draws place chromosomes).bind Genotype.ofDoubles
    | .integer _ :: _ =>
      (toIntegerChromosomes jenetics draws place chromosomes).bind Genotype.ofIntegers)
  <|> defaultGenotype jenetics draws (2 * config.getChromosomeSpecs.length)

end

def convertToParameters (genotype : Genotype) (config : ParamConfig) : Outcome :=
  config.createParameters genotype.chromosomes

/-- The second chromosome can come from the first by mutation and crossover. -/
def Chromosome.Evolves : Chromosome → Chromosome → Prop
  | integer c, integer c' =>
    c'.min = c.min ∧ c'.max = c.max ∧ c'.min ≤ c'.allele ∧ c'.allele ≤ c'.max
  | double c, double c' =>
    c'.min = c.min ∧ c'.max = c.max ∧ c'.min ≤ c'.allele ∧ c'.allele ≤ c'.max
  | _, _ => False

def Genotype.Evolves (g g' : Genotype) : Prop :=
  List.Forall₂ Chromosome.Evolves g.chromosomes g'.chromosomes

/-- The two ranges are the same single value, when they are of one type. -/
def ChromosomeSpec.OneValue : ChromosomeSpec → ChromosomeSpec → Prop
  | integer r, integer s => r.fst = r.snd ∧ s.fst = s.snd ∧ r.fst = s.fst
  | double r, double s => r.fst = r.snd ∧ s.fst = s.snd ∧ r.fst = s.fst
  | _, _ => True

/-- Every parameter has a name, and a name of its own unless only one value can ever
come under it. -/
def ParamConfig.NamesApart (config : ParamConfig) : Prop :=
  (∀ f ∈ config.fields, f.name ≠ none) ∧
    config.fields.Pairwise fun f f' => f.name = f'.name → f.spec.OneValue f'.spec

/-- The genetic algorithm searches the space that the specs describe: a genotype of
their types and ranges, and from all that evolves out of it the parameters of its
alleles. -/
def HonoursSpecs (jenetics : Jenetics) (config : ParamConfig) : Prop :=
  ∀ draws, ∃ g, createGenotype jenetics draws config = some g ∧
    List.Forall₂ Chromosome.HasSpec g.chromosomes config.getChromosomeSpecs ∧
    ∀ g', g.Evolves g' → ∃ p, convertToParameters g' config = .created p ∧
      List.Forall₂ (GivesAllele p) config.fields g'.chromosomes ∧
      List.Forall₂ Chromosome.AlleleIn g'.chromosomes config.getChromosomeSpecs

section
variable {jenetics : Jenetics} {draws : Draws}

theorem exists_createChromosome {spec : ChromosomeSpec} (h : jenetics.Accepts spec)
    (draws : Draws) (place : ℕ) :
    ∃ c, spec.createChromosome jenetics draws place = some c ∧ c.HasSpec spec := by
  cases spec with
  | integer range =>
    have h' : jenetics.acceptsInteger range.fst range.snd = true := h
    refine ⟨.integer ⟨range.fst, range.snd, draws.integer place range.fst range.snd⟩, ?_, rfl, rfl⟩
    simp [ChromosomeSpec.createChromosome, Jenetics.integerChromosome, h']
  | double range =>
    have h' : jenetics.acceptsDouble range.fst range.snd = true := h
    refine ⟨.double ⟨range.fst, range.snd, draws.double place range.fst range.snd⟩, ?_, rfl, rfl⟩
    simp [ChromosomeSpec.createChromosome, Jenetics.doubleChromosome, h']

theorem accepts_of_createChromosome {spec : ChromosomeSpec} {place : ℕ} {c : Chromosome}
    (h : spec.createChromosome jenetics draws place = some c) : jenetics.Accepts spec := by
  cases spec with
  | integer range =>
    by_contra hn
    have hn' : jenetics.acceptsInteger range.fst range.snd = false := by
      simpa [Jenetics.Accepts] using hn
    simp [ChromosomeSpec.createChromosome, Jenetics.integerChromosome, hn'] at h
  | double range =>
    by_contra hn
    have hn' : jenetics.acceptsDouble range.fst range.snd = false := by
      simpa [Jenetics.Accepts] using hn
    simp [ChromosomeSpec.createChromosome, Jenetics.doubleChromosome, hn'] at h

theorem exists_initialChromosomes {specs : List ChromosomeSpec}
    (h : ∀ spec ∈ specs, jenetics.Accepts spec) (draws : Draws) (place : ℕ) :
    ∃ cs, initialChromosomes jenetics draws place specs = some cs ∧
      List.Forall₂ Chromosome.HasSpec cs specs := by
  induction specs generalizing place with
  | nil => exact ⟨[], rfl, .nil⟩
  | cons spec specs ih =>
    rw [List.forall_mem_cons] at h
    obtain ⟨c, hc, hspec⟩ := exists_createChromosome h.1 draws place
    obtain ⟨cs, hcs, hspecs⟩ := ih h.2 (place + 1)
    refine ⟨c :: cs, ?_, .cons hspec hspecs⟩
    simp [initialChromosomes, hc, hcs]

theorem accepts_of_initialChromosomes {specs : List ChromosomeSpec} {place : ℕ}
    {cs : List Chromosome} (h : initialChromosomes jenetics draws place specs = some cs) :
    ∀ spec ∈ specs, jenetics.Accepts spec := by
  induction specs generalizing place cs with
  | nil => simp
  | cons spec specs ih =>
    simp only [initialChromosomes, Option.bind_eq_bind, Option.bind_eq_some_iff] at h
    obtain ⟨c, hc, cs', hcs', -⟩ := h
    rw [List.forall_mem_cons]
    exact ⟨accepts_of_createChromosome hc, ih hcs'⟩

theorem toIntegerChromosomes_integer (jenetics : Jenetics) (draws : Draws) (place : ℕ)
    (cs : List (NumericChromosome Int32)) :
    toIntegerChromosomes jenetics draws place (cs.map .integer) = some cs := by
  induction cs generalizing place with
  | nil => rfl
  | cons c cs ih => simp [toIntegerChromosomes, ih]

theorem toDoubleChromosomes_double (jenetics : Jenetics) (draws : Draws) (place : ℕ)
    (cs : List (NumericChromosome ℚ)) :
    toDoubleChromosomes jenetics draws place (cs.map .double) = some cs := by
  induction cs generalizing place with
  | nil => rfl
  | cons c cs ih => simp [toDoubleChromosomes, ih]

theorem exists_related_of_mem {α β : Type*} {R : α → β → Prop} {as : List α} {bs : List β}
    (h : List.Forall₂ R as bs) :
    (∀ a ∈ as, ∃ b ∈ bs, R a b) ∧ ∀ b ∈ bs, ∃ a ∈ as, R a b := by
  induction h with
  | nil => simp
  | cons hab _ ih =>
    constructor
    · rw [List.forall_mem_cons]
      refine ⟨⟨_, List.mem_cons_self, hab⟩, ?_⟩
      intro a ha
      obtain ⟨b, hb, hR⟩ := ih.1 a ha
      exact ⟨b, List.mem_cons_of_mem _ hb, hR⟩
    · rw [List.forall_mem_cons]
      refine ⟨⟨_, List.mem_cons_self, hab⟩, ?_⟩
      intro b hb
      obtain ⟨a, ha, hR⟩ := ih.2 b hb
      exact ⟨a, List.mem_cons_of_mem _ ha, hR⟩

theorem exists_eq_map_integer {cs : List Chromosome} {specs : List ChromosomeSpec}
    (h : List.Forall₂ Chromosome.HasSpec cs specs)
    (htype : ∀ spec ∈ specs, spec.type = .INTEGER) :
    cs ∈ Set.range (List.map Chromosome.integer) := by
  rw [Set.range_list_map]
  intro c hc
  obtain ⟨spec, hmem, hspec⟩ := (exists_related_of_mem h).1 c hc
  have hinteger := htype spec hmem
  cases c with
  | integer d => exact ⟨d, rfl⟩
  | double d => cases spec <;> simp [Chromosome.HasSpec, ChromosomeSpec.type] at hspec hinteger

theorem exists_eq_map_double {cs : List Chromosome} {specs : List ChromosomeSpec}
    (h : List.Forall₂ Chromosome.HasSpec cs specs)
    (htype : ∀ spec ∈ specs, spec.type = .DOUBLE) :
    cs ∈ Set.range (List.map Chromosome.double) := by
  rw [Set.range_list_map]
  intro c hc
  obtain ⟨spec, hmem, hspec⟩ := (exists_related_of_mem h).1 c hc
  have hdouble := htype spec hmem
  cases c with
  | integer d => cases spec <;> simp [Chromosome.HasSpec, ChromosomeSpec.type] at hspec hdouble
  | double d => exact ⟨d, rfl⟩

/-- Specs of one type give the genotype that they describe. -/
theorem exists_createGenotype {config : ParamConfig} (hne : config.getChromosomeSpecs ≠ [])
    {type : ParameterType} (htype : ∀ spec ∈ config.getChromosomeSpecs, spec.type = type)
    (haccepts : ∀ spec ∈ config.getChromosomeSpecs, jenetics.Accepts spec) :
    ∃ g, createGenotype jenetics draws config = some g ∧
      List.Forall₂ Chromosome.HasSpec g.chromosomes config.getChromosomeSpecs := by
  obtain ⟨cs, hcs, hspecs⟩ := exists_initialChromosomes haccepts draws 0
  have hcsne : cs ≠ [] := by
    intro h
    subst h
    rw [List.forall₂_nil_left_iff] at hspecs
    exact hne hspecs
  -- with one type for all, no chromosome is replaced
  cases type with
  | INTEGER =>
    obtain ⟨ds, rfl⟩ := exists_eq_map_integer hspecs htype
    have hds : ds ≠ [] := by simpa using hcsne
    refine ⟨.integers ds hds, ?_, hspecs⟩
    obtain ⟨d, ds, rfl⟩ := List.exists_cons_of_ne_nil hds
    have hsame := toIntegerChromosomes_integer jenetics draws
      ((d :: ds).map Chromosome.integer).length (d :: ds)
    simp only [List.map_cons, List.length_cons, List.length_map] at hcs hsame
    simp [createGenotype, hcs, hsame, Genotype.ofIntegers]
  | DOUBLE =>
    obtain ⟨ds, rfl⟩ := exists_eq_map_double hspecs htype
    have hds : ds ≠ [] := by simpa using hcsne
    refine ⟨.doubles ds hds, ?_, hspecs⟩
    obtain ⟨d, ds, rfl⟩ := List.exists_cons_of_ne_nil hds
    have hsame := toDoubleChromosomes_double jenetics draws
      ((d :: ds).map Chromosome.double).length (d :: ds)
    simp only [List.map_cons, List.length_cons, List.length_map] at hcs hsame
    simp [createGenotype, hcs, hsame, Genotype.ofDoubles]

theorem Genotype.chromosomes_ne_nil (g : Genotype) : g.chromosomes ≠ [] := by
  cases g with
  | integers cs ne => simpa [Genotype.chromosomes] using ne
  | doubles cs ne => simpa [Genotype.chromosomes] using ne

/-- A genotype has one gene type, so the specs that it follows are of one type. -/
theorem Genotype.exists_type_of_hasSpec {g : Genotype} {specs : List ChromosomeSpec}
    (h : List.Forall₂ Chromosome.HasSpec g.chromosomes specs) :
    ∃ type, ∀ spec ∈ specs, spec.type = type := by
  cases g with
  | integers cs ne =>
    refine ⟨.INTEGER, ?_⟩
    intro spec hmem
    obtain ⟨c, hc, hspec⟩ := (exists_related_of_mem h).2 spec hmem
    obtain ⟨d, -, rfl⟩ := List.mem_map.mp hc
    cases spec with
    | integer range => rfl
    | double range => exact hspec.elim
  | doubles cs ne =>
    refine ⟨.DOUBLE, ?_⟩
    intro spec hmem
    obtain ⟨c, hc, hspec⟩ := (exists_related_of_mem h).2 spec hmem
    obtain ⟨d, -, rfl⟩ := List.mem_map.mp hc
    cases spec with
    | integer range => exact hspec.elim
    | double range => rfl

theorem defaultGenotype_chromosomes {place : ℕ} {g : Genotype}
    (h : defaultGenotype jenetics draws place = some g) :
    jenetics.acceptsDouble 0 1 = true ∧
      g.chromosomes = [.double ⟨0, 1, draws.double place 0 1⟩] := by
  unfold defaultGenotype Jenetics.doubleChromosome at h
  by_cases haccepts : jenetics.acceptsDouble 0 1 = true
  · simp [haccepts, Genotype.ofDoubles] at h
    exact ⟨haccepts, by rw [← h]; rfl⟩
  · simp [haccepts] at h

/-- Also the genotype of the handler follows no spec that Jenetics refuses. -/
theorem accepts_of_createGenotype {config : ParamConfig} {g : Genotype}
    (h : createGenotype jenetics draws config = some g)
    (hspecs : List.Forall₂ Chromosome.HasSpec g.chromosomes config.getChromosomeSpecs) :
    ∀ spec ∈ config.getChromosomeSpecs, jenetics.Accepts spec := by
  cases hcs : initialChromosomes jenetics draws 0 config.getChromosomeSpecs with
  | some cs => exact accepts_of_initialChromosomes hcs
  | none =>
    -- the default genotype has one chromosome, of doubles from 0 to 1
    have hdefault : createGenotype jenetics draws config =
        defaultGenotype jenetics draws (2 * config.getChromosomeSpecs.length) := by
      simp [createGenotype, hcs]
    rw [hdefault] at h
    obtain ⟨haccepts, hg⟩ := defaultGenotype_chromosomes h
    rw [hg, List.forall₂_cons_left_iff] at hspecs
    obtain ⟨spec, rest, hspec, hrest, heq⟩ := hspecs
    rw [List.forall₂_nil_left_iff] at hrest
    subst hrest
    rw [heq]
    intro spec' hmem
    rw [List.mem_singleton] at hmem
    subst hmem
    cases spec' with
    | integer range => exact hspec.elim
    | double range =>
      have hmin : (0 : ℚ) = range.fst := hspec.1
      have hmax : (1 : ℚ) = range.snd := hspec.2
      show jenetics.acceptsDouble range.fst range.snd = true
      rw [← hmin, ← hmax]
      exact haccepts

end

/-- Evolution keeps the spec of a chromosome and brings its allele into the range. -/
theorem Chromosome.HasSpec.evolves {c c' : Chromosome} {spec : ChromosomeSpec}
    (h : c.HasSpec spec) (he : c.Evolves c') : c'.HasSpec spec ∧ c'.AlleleIn spec := by
  cases c <;> cases c' <;> cases spec <;> try first | exact h.elim | exact he.elim
  · obtain ⟨hmin, hmax, hle, hge⟩ := he
    rw [hmin, h.1] at hle
    rw [hmax, h.2] at hge
    exact ⟨⟨hmin.trans h.1, hmax.trans h.2⟩, hle, hge⟩
  · obtain ⟨hmin, hmax, hle, hge⟩ := he
    rw [hmin, h.1] at hle
    rw [hmax, h.2] at hge
    exact ⟨⟨hmin.trans h.1, hmax.trans h.2⟩, hle, hge⟩

theorem forall₂_hasSpec_evolves {cs cs' : List Chromosome} {specs : List ChromosomeSpec}
    (h : List.Forall₂ Chromosome.HasSpec cs specs)
    (he : List.Forall₂ Chromosome.Evolves cs cs') :
    List.Forall₂ Chromosome.HasSpec cs' specs ∧ List.Forall₂ Chromosome.AlleleIn cs' specs := by
  induction h generalizing cs' with
  | nil =>
    rw [List.forall₂_nil_left_iff] at he
    subst he
    exact ⟨.nil, .nil⟩
  | cons hspec _ ih =>
    rw [List.forall₂_cons_left_iff] at he
    obtain ⟨c', cs', hc', hcs', rfl⟩ := he
    have hhead := hspec.evolves hc'
    have htail := ih hcs'
    exact ⟨.cons hhead.1 htail.1, .cons hhead.2 htail.2⟩

/-- What evolves out of the chromosomes of a genotype is again of one gene type. -/
theorem Genotype.exists_chromosomes_eq {g : Genotype} {cs : List Chromosome}
    (h : List.Forall₂ Chromosome.Evolves g.chromosomes cs) :
    ∃ g' : Genotype, g'.chromosomes = cs := by
  have hne : cs ≠ [] := by
    intro hcs
    rw [hcs, List.forall₂_nil_right_iff] at h
    exact g.chromosomes_ne_nil h
  -- an evolved chromosome is of the kind of its parent, so that all are of one kind
  cases g with
  | integers ds ne =>
    have hds : cs ∈ Set.range (List.map Chromosome.integer) := by
      rw [Set.range_list_map]
      intro c hc
      obtain ⟨c', hc', hevolves⟩ := (exists_related_of_mem h).2 c hc
      obtain ⟨d, -, rfl⟩ := List.mem_map.mp hc'
      cases c with
      | integer d' => exact ⟨d', rfl⟩
      | double d' => exact hevolves.elim
    obtain ⟨ds', rfl⟩ := hds
    exact ⟨.integers ds' (by simpa using hne), rfl⟩
  | doubles ds ne =>
    have hds : cs ∈ Set.range (List.map Chromosome.double) := by
      rw [Set.range_list_map]
      intro c hc
      obtain ⟨c', hc', hevolves⟩ := (exists_related_of_mem h).2 c hc
      obtain ⟨d, -, rfl⟩ := List.mem_map.mp hc'
      cases c with
      | integer d' => exact hevolves.elim
      | double d' => exact ⟨d', rfl⟩
    obtain ⟨ds', rfl⟩ := hds
    exact ⟨.doubles ds' (by simpa using hne), rfl⟩

/-- The chromosome with its allele at the upper or the lower end of the range. -/
def Chromosome.atEnd (upper : Bool) : Chromosome → Chromosome
  | integer c => integer { c with allele := if upper then c.max else c.min }
  | double c => double { c with allele := if upper then c.max else c.min }

theorem Chromosome.HasSpec.evolves_atEnd {c : Chromosome} {spec : ChromosomeSpec}
    (h : c.HasSpec spec) (upper : Bool) : c.Evolves (c.atEnd upper) := by
  cases c <;> cases spec <;> try exact h.elim
  case integer.integer c range =>
    have hle : c.min ≤ c.max := by
      rw [h.1, h.2]
      exact range.fst_le_snd
    cases upper
    · exact ⟨rfl, rfl, Int32.le_refl _, hle⟩
    · exact ⟨rfl, rfl, hle, Int32.le_refl _⟩
  case double.double c range =>
    have hle : c.min ≤ c.max := by
      rw [h.1, h.2]
      exact range.fst_le_snd
    cases upper
    · exact ⟨rfl, rfl, le_rfl, hle⟩
    · exact ⟨rfl, rfl, hle, le_rfl⟩

theorem forall₂_evolves_atEnd {cs : List Chromosome} {specs : List ChromosomeSpec}
    (h : List.Forall₂ Chromosome.HasSpec cs specs) (upper : ℕ → Bool) :
    List.Forall₂ Chromosome.Evolves cs (cs.mapIdx fun i c => c.atEnd (upper i)) := by
  rw [List.forall₂_iff_get] at h ⊢
  refine ⟨(List.length_mapIdx).symm, ?_⟩
  intro i hi hi'
  have hspec := h.2 i hi (h.1 ▸ hi)
  simpa using hspec.evolves_atEnd (upper i)

/-- Two ranges whose alleles can only be held under one name together. -/
theorem ChromosomeSpec.oneValue_of_holds {c c' : Chromosome} {spec spec' : ChromosomeSpec}
    (h : c.HasSpec spec) (h' : c'.HasSpec spec') (name : String)
    (hholds : ∀ b b', ∃ p : ParameterValues ℚ,
      p.Holds name (c.atEnd b).value ∧ p.Holds name (c'.atEnd b').value) :
    spec.OneValue spec' := by
  obtain ⟨p, hp, hp'⟩ := hholds false false
  obtain ⟨q, hq, hq'⟩ := hholds true false
  obtain ⟨r, hr, hr'⟩ := hholds false true
  cases c <;> cases spec <;> try exact h.elim
  · cases c' <;> cases spec' <;> try first | exact h'.elim | trivial
    have hmin := hp.int_eq hp'
    have hmax := hq.int_eq hq'
    have hmax' := hr.int_eq hr'
    simp only [Bool.false_eq_true, if_false, if_true, h.1, h.2, h'.1, h'.2] at hmin hmax hmax'
    exact ⟨hmin.trans hmax.symm, hmin.symm.trans hmax', hmin⟩
  · cases c' <;> cases spec' <;> try first | exact h'.elim | trivial
    have hmin := hp.double_eq hp'
    have hmax := hq.double_eq hq'
    have hmax' := hr.double_eq hr'
    simp only [Bool.false_eq_true, if_false, if_true, h.1, h.2, h'.1, h'.2] at hmin hmax hmax'
    exact ⟨hmin.trans hmax.symm, hmin.symm.trans hmax', hmin⟩

theorem ChromosomeSpec.OneValue.value_eq {c c' : Chromosome} {spec spec' : ChromosomeSpec}
    (h : spec.OneValue spec') (htype : spec.type = spec'.type) (hc : c.AlleleIn spec)
    (hc' : c'.AlleleIn spec') : c.value = c'.value := by
  cases c <;> cases spec <;> try exact hc.elim
  · cases c' <;> cases spec' <;> try first | exact hc'.elim | cases htype
    obtain ⟨hr, hs, hrs⟩ := h
    have hval := Int32.le_antisymm (hr ▸ hc.2) hc.1
    have hval' := Int32.le_antisymm (hs ▸ hc'.2) hc'.1
    simp only [Chromosome.value, hval, hval', hrs]
  · cases c' <;> cases spec' <;> try first | exact hc'.elim | cases htype
    obtain ⟨hr, hs, hrs⟩ := h
    have hval := le_antisymm (hr ▸ hc.2) hc.1
    have hval' := le_antisymm (hs ▸ hc'.2) hc'.1
    simp only [Chromosome.value, hval, hval', hrs]

theorem namesAgree_of_namesApart {config : ParamConfig} (happart : config.NamesApart)
    {type : ParameterType} (htype : ∀ spec ∈ config.getChromosomeSpecs, spec.type = type)
    {cs : List Chromosome}
    (hin : List.Forall₂ Chromosome.AlleleIn cs config.getChromosomeSpecs) :
    NamesAgree config.fields cs := by
  rw [← config.map_spec_fields, List.forall₂_map_right_iff] at hin
  have hfst : (config.fields.zip cs).map Prod.fst = config.fields :=
    List.map_fst_zip hin.length_eq.ge
  have hpairs := happart.2
  rw [← hfst, List.pairwise_map] at hpairs
  apply hpairs.imp_of_mem
  intro a b ha hb hone hname
  have htypes : a.1.spec.type = b.1.spec.type := by
    have hmem (x : ParamField × Chromosome) (hx : x ∈ config.fields.zip cs) :
        x.1.spec ∈ config.getChromosomeSpecs := by
      rw [← config.map_spec_fields]
      exact List.mem_map_of_mem (List.of_mem_zip hx).1
    rw [htype _ (hmem a ha), htype _ (hmem b hb)]
  have hallele (x : ParamField × Chromosome) (hx : x ∈ config.fields.zip cs) :
      x.2.AlleleIn x.1.spec := List.forall₂_zip hin.flip hx
  exact (hone hname).value_eq htypes (hallele a ha) (hallele b hb)

/-- The parameters of a genotype that follows the specs, when names do not collide. -/
theorem exists_convertToParameters {config : ParamConfig} (happart : config.NamesApart)
    {type : ParameterType} (htype : ∀ spec ∈ config.getChromosomeSpecs, spec.type = type)
    {g g' : Genotype}
    (hg : List.Forall₂ Chromosome.HasSpec g.chromosomes config.getChromosomeSpecs)
    (he : g.Evolves g') :
    ∃ p, convertToParameters g' config = .created p ∧
      List.Forall₂ (GivesAllele p) config.fields g'.chromosomes ∧
      List.Forall₂ Chromosome.AlleleIn g'.chromosomes config.getChromosomeSpecs := by
  obtain ⟨hspecs, hin⟩ := forall₂_hasSpec_evolves hg he
  have hfields : List.Forall₂ (fun f c => Chromosome.HasSpec c f.spec) config.fields
      g'.chromosomes := by
    rw [← config.map_spec_fields, List.forall₂_map_right_iff] at hspecs
    exact hspecs.flip
  obtain ⟨p, hp, hgives, -⟩ := exists_putAll hfields happart.1
    (namesAgree_of_namesApart happart htype hin) .empty
  exact ⟨p, (ParamConfig.createParameters_eq_created_iff hspecs p).mpr hp, hgives, hin⟩

/-- Conversely, names that collide lose an allele of some evolved genotype. -/
theorem namesApart_of_convertToParameters {config : ParamConfig} {g : Genotype}
    (hg : List.Forall₂ Chromosome.HasSpec g.chromosomes config.getChromosomeSpecs)
    (h : ∀ g', g.Evolves g' → ∃ p, convertToParameters g' config = .created p ∧
      List.Forall₂ (GivesAllele p) config.fields g'.chromosomes) :
    config.NamesApart := by
  -- every choice of ends is the alleles of some evolved genotype
  have hends (upper : ℕ → Bool) : ∃ p : ParameterValues ℚ,
      List.Forall₂ (GivesAllele p) config.fields
        (g.chromosomes.mapIdx fun i c => c.atEnd (upper i)) := by
    have he := forall₂_evolves_atEnd hg upper
    obtain ⟨g', hg'⟩ := Genotype.exists_chromosomes_eq he
    rw [← hg'] at he
    obtain ⟨p, -, hp⟩ := h g' he
    rw [hg'] at hp
    exact ⟨p, hp⟩
  have hnamed : ∀ f ∈ config.fields, f.name ≠ none := by
    obtain ⟨p, hp⟩ := hends fun _ => false
    intro f hf
    obtain ⟨i, hi, rfl⟩ := List.getElem_of_mem hf
    rw [List.forall₂_iff_get] at hp
    obtain ⟨name, hname, -⟩ := hp.2 i hi (hp.1 ▸ hi)
    exact Option.ne_none_iff_exists'.mpr ⟨name, hname⟩
  refine ⟨hnamed, ?_⟩
  rw [← config.map_spec_fields, List.forall₂_map_right_iff, List.forall₂_iff_get] at hg
  rw [List.pairwise_iff_getElem]
  intro i j hi hj hij hname
  have hi' : i < g.chromosomes.length := hg.1 ▸ hi
  have hj' : j < g.chromosomes.length := hg.1 ▸ hj
  have hsome := hnamed _ (List.getElem_mem hi)
  obtain ⟨name, hnamei⟩ := Option.ne_none_iff_exists'.mp hsome
  have hnamej : config.fields[j].name = some name := hname.symm.trans hnamei
  apply ChromosomeSpec.oneValue_of_holds (hg.2 i hi' hi) (hg.2 j hj' hj) name
  intro b b'
  obtain ⟨p, hp⟩ := hends fun k => if k = i then b else b'
  rw [List.forall₂_iff_get] at hp
  obtain ⟨m, hm, hholds⟩ := hp.2 i hi (hp.1 ▸ hi)
  obtain ⟨m', hm', hholds'⟩ := hp.2 j hj (hp.1 ▸ hj)
  have hmi : m = name := Option.some.inj (hm.symm.trans hnamei)
  have hmj : m' = name := Option.some.inj (hm'.symm.trans hnamej)
  refine ⟨p, ?_, ?_⟩
  · simpa [hmi] using hholds
  · have hji : j ≠ i := by omega
    simpa [hmj, hji] using hholds'

/-- The names of a class's own message are never the matter. -/
theorem FixedParamConfig.namesApart (config : FixedParamConfig) :
    (ParamConfig.fixed config).NamesApart := by
  refine ⟨config.named, ?_⟩
  have hnodup := List.pairwise_map.mp config.names_nodup
  apply hnodup.imp
  intro f f' hne hname
  exact absurd hname hne

theorem honoursSpecs_of_one_type {jenetics : Jenetics} {config : ParamConfig}
    (hne : config.getChromosomeSpecs ≠ []) {type : ParameterType}
    (htype : ∀ spec ∈ config.getChromosomeSpecs, spec.type = type)
    (haccepts : ∀ spec ∈ config.getChromosomeSpecs, jenetics.Accepts spec)
    (happart : config.NamesApart) : HonoursSpecs jenetics config := by
  intro draws
  obtain ⟨g, hcreate, hspecs⟩ := exists_createGenotype hne htype haccepts
  refine ⟨g, hcreate, hspecs, ?_⟩
  intro g' he
  exact exists_convertToParameters happart htype hspecs he

/-- A config of both types is never searched as it is specified. -/
theorem not_honoursSpecs_of_mixed {jenetics : Jenetics} {config : ParamConfig}
    {spec spec' : ChromosomeSpec} (h : spec ∈ config.getChromosomeSpecs)
    (h' : spec' ∈ config.getChromosomeSpecs) (hne : spec.type ≠ spec'.type) :
    ¬ HonoursSpecs jenetics config := by
  intro hhonours
  obtain ⟨g, -, hspecs, -⟩ := hhonours ⟨fun _ min _ => min, fun _ min _ => min⟩
  obtain ⟨type, htype⟩ := Genotype.exists_type_of_hasSpec hspecs
  exact hne ((htype spec h).trans (htype spec' h').symm)

theorem honoursSpecs_iff (jenetics : Jenetics) (config : ParamConfig) :
    HonoursSpecs jenetics config ↔
      config.getChromosomeSpecs ≠ [] ∧
      (∃ type, ∀ spec ∈ config.getChromosomeSpecs, spec.type = type) ∧
      (∀ spec ∈ config.getChromosomeSpecs, jenetics.Accepts spec) ∧ config.NamesApart := by
  constructor
  · intro h
    obtain ⟨g, hcreate, hspecs, hparams⟩ := h ⟨fun _ min _ => min, fun _ min _ => min⟩
    have happart : config.NamesApart := by
      apply namesApart_of_convertToParameters hspecs
      intro g' he
      obtain ⟨p, hp, hgives, -⟩ := hparams g' he
      exact ⟨p, hp, hgives⟩
    refine ⟨?_, Genotype.exists_type_of_hasSpec hspecs,
      accepts_of_createGenotype hcreate hspecs, happart⟩
    intro hnil
    rw [hnil, List.forall₂_nil_right_iff] at hspecs
    exact g.chromosomes_ne_nil hspecs
  · rintro ⟨hne, ⟨type, htype⟩, haccepts, happart⟩
    exact honoursSpecs_of_one_type hne htype haccepts happart

/-- Chromosome classes that want a range of more than one value. -/
def properRanges : Jenetics where
  acceptsInteger := fun min max => min < max
  acceptsDouble := fun min max => min < max

def lowestDraws : Draws := ⟨fun _ min _ => min, fun _ min _ => min⟩

/-- No registered class with ranges of both types is searched as it is specified. -/
theorem not_honoursSpecs_of_mem_mixedParamConfigs (jenetics : Jenetics)
    {config : FixedParamConfig} (h : config ∈ mixedParamConfigs) :
    ¬ HonoursSpecs jenetics (.fixed config) := by
  have hmixed : ∃ spec ∈ config.fields.map ParamField.spec,
      ∃ spec' ∈ config.fields.map ParamField.spec, spec.type ≠ spec'.type := by
    revert config
    decide
  obtain ⟨spec, hspec, spec', hspec', hne⟩ := hmixed
  exact not_honoursSpecs_of_mixed hspec hspec' hne

theorem not_honoursSpecs_smaRsi :
    ¬ HonoursSpecs properRanges (.fixed smaRsiParamConfig) := by
  apply not_honoursSpecs_of_mem_mixedParamConfigs
  exact List.mem_cons_self

-- both thresholds become integers, in ranges that the draw of an allele decides
example : (createGenotype properRanges lowestDraws (.fixed smaRsiParamConfig)).map
    Genotype.chromosomes =
      some [.integer ⟨5, 50, 5⟩, .integer ⟨2, 30, 2⟩, .integer ⟨60, 120, 60⟩,
        .integer ⟨15, 30, 15⟩] := by
  decide +kernel

example : HonoursSpecs properRanges (.fixed emaMacdParamConfig) := by
  have hspecs : ∀ spec ∈ (ParamConfig.fixed emaMacdParamConfig).getChromosomeSpecs,
      spec.type = .INTEGER ∧ properRanges.Accepts spec := by
    simp [ParamConfig.getChromosomeSpecs, emaMacdParamConfig, ChromosomeSpec.ofInteger,
      ChromosomeSpec.type, Jenetics.Accepts, properRanges]
  exact honoursSpecs_of_one_type (List.cons_ne_nil _ _) (fun spec h => (hspecs spec h).1)
    (fun spec h => (hspecs spec h).2) emaMacdParamConfig.namesApart

end TradeStream.Discovery
