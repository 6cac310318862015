import CacheModel.Dump
import CacheModel.Main
import CacheModel.Proofs.Decomposition
import CacheModel.Proofs.Descent
import CacheModel.Proofs.Interchange
import CacheModel.Proofs.Recency
import CacheModel.Proofs.Tally
import CacheModel.Proofs.Inclusion
import CacheModel.Proofs.Queue
import CacheModel.Proofs.Traffic
import CacheModel.Proofs.Independence
import CacheModel.Proofs.Draws
import CacheModel.Proofs.Integrity
import CacheModel.Proofs.Meaning
import CacheModel.Proofs.Json.Grammar
import CacheModel.Proofs.Numeral
import CacheModel.Proofs.Json.Numbers
import CacheModel.Proofs.Json.Texts
import CacheModel.Proofs.Json.Values
import CacheModel.Proofs.Acceptance
import CacheModel.Proofs.Resolution
import CacheModel.Proofs.Pieces
import CacheModel.Proofs.Written
import CacheModel.Proofs.Checked
import CacheModel.Proofs.Guarded
import CacheModel.Proofs.Footprint
import CacheModel.Proofs.Outgoing
import CacheModel.Proofs.SameLines
import CacheModel.Proofs.Commanded
import CacheModel.Proofs.Thinning
import CacheModel.Proofs.Filling
import CacheModel.Proofs.Balance
import CacheModel.Proofs.GeometryText
import CacheModel.Proofs.TraceLine
import CacheModel.Proofs.Consecutive
import CacheModel.Proofs.NormalForm
import CacheModel.Proofs.DirectMapped
import CacheModel.Proofs.Period
import CacheModel.Proofs.Stamping
import CacheModel.Proofs.Reported
