import Phrasebook.Main
import Phrasebook.Options.OfJson
import Phrasebook.Proofs.Accessor.ArgumentLists
import Phrasebook.Proofs.Accessor.Classification
import Phrasebook.Proofs.Accessor.Decomposition
import Phrasebook.Proofs.Accessor.Dump
import Phrasebook.Proofs.Accessor.LeastIdentifiers
import Phrasebook.Proofs.Accessor.Nulls
import Phrasebook.Proofs.Accessor.Places
import Phrasebook.Proofs.Accessor.Properties
import Phrasebook.Proofs.Accessor.Readable
import Phrasebook.Proofs.Accessor.Rearrangement
import Phrasebook.Proofs.Accessor.RoundedCounts
import Phrasebook.Proofs.Banner
import Phrasebook.Proofs.Cli.Messages
import Phrasebook.Proofs.Cli.Options
import Phrasebook.Proofs.Cli.Stages
import Phrasebook.Proofs.Json.Print
import Phrasebook.Proofs.Path
import Phrasebook.Proofs.Script.Indentation
import Phrasebook.Proofs.Script.Templates
